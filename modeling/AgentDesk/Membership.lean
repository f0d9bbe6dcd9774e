/-
# Who is a member, as far as the platform says

Before a private message goes out, `deliverRosterMessage` may ask whether the participant is still in
the group of the consent. The adapter reads the group's members page by page (`isMember` in
`src/channels/feishu.ts`), twenty pages at most, and a definite answer is kept for half a minute
(`isMemberCached` in `src/delivery.ts`). `false` takes the grant away, so it should be said only when the
listing was read to its end; but it is also said when the twentieth page is not the last, and when a
page that is not the last has no token for the next.

The answers of the platform are one after another, whatever tokens they carry. The calls of
`deliverRosterMessage` overlap: each looks into the cache, may wait for the adapter, and then judges.

* `pages_verdict`: what a listing comes to: the verdict of its first page that does not go on.
* `absence_seen_iff`: **`false` means an absence that was seen exactly when a page decides in time.**
* `refusals_seen`: in every run in which a page decides in time, so does every refusal rest on
  an absence seen within the half minute before.
-/
import AgentDesk.GatewayKey
import AgentDesk.OriginGroup

namespace AgentDesk

open Js

/-! ### The pages of a group -/

/-- The answers to the calls for members, one after another; `none` where a call throws. -/
abbrev MemberAnswers := ℕ → Option MembersPage

/-- The loop over the pages, with the pages that may still be asked for. -/
def memberOf (answers : MemberAnswers) (handle : String) : ℕ → ℕ → Option Bool
  | 0, _ => some false
  | pages + 1, page => match answers page with
    | none => none
    | some res =>
      if res.code ≠ some 0 ∧ res.code ≠ none then none
      else if some handle ∈ res.items then some true
      else if !res.hasMore || !truthy res.pageToken then some false
      else memberOf answers handle pages (page + 1)

/-- `isMember` of the adapter. -/
def isMember (answers : MemberAnswers) (platformId userHandle : String) : Option Bool :=
  let handle := trim userHandle
  if !startsWith handle "ou_" then none
  else (groupKeyChat platformId).bind fun _ => memberOf answers handle 20 0

/-- The answers of a service that looks at the token alone. -/
def MembersApi.token (api : MembersApi) (chatId : String) : ℕ → Option String
  | 0 => none
  | n + 1 => (api chatId (token api chatId n)).bind (·.pageToken)

def MembersApi.answers (api : MembersApi) (chatId : String) : MemberAnswers := fun n => api chatId (api.token chatId n)

theorem MembersApi.findMember_eq (api : MembersApi) (chatId handle : String) (pages page : ℕ) :
    api.findMember chatId handle pages (api.token chatId page) = memberOf (api.answers chatId) handle pages page := by
  induction pages generalizing page with
  | zero => rfl
  | succ pages ih =>
    rw [findMember, memberOf, answers]
    cases hres : api chatId (api.token chatId page) with
    | none => rfl
    | some res =>
      have htoken : api.token chatId (page + 1) = res.pageToken := by
        rw [token, hres]
        rfl
      dsimp only
      rw [← htoken, ih]

theorem MembersApi.isMember_eq (api : MembersApi) (platformId userHandle chatId : String)
    (h : groupKeyChat platformId = some chatId) :
    api.isMember platformId userHandle = AgentDesk.isMember (api.answers chatId) platformId userHandle := by
  unfold MembersApi.isMember AgentDesk.isMember
  rw [h]
  simp only [Option.bind_some]
  rw [← api.findMember_eq chatId (trim userHandle) 20 0]
  rfl

/-! ### What a page says -/

/-- The page was read. -/
def MembersPage.Read (res : MembersPage) : Prop := res.code = some 0 ∨ res.code = none

/-- The page was read, the user is not on it, and there is a next one with a token. -/
structure MembersPage.GoesOn (res : MembersPage) (handle : String) : Prop where
  read : res.Read
  absent : some handle ∉ res.items
  more : res.hasMore = true
  token : truthy res.pageToken = true

/-- The first pages go on. -/
def GoOn (answers : MemberAnswers) (handle : String) (first n : ℕ) : Prop :=
  ∀ i < n, ∃ res, answers (first + i) = some res ∧ res.GoesOn handle

/-- A complete listing was read, and the user is on none of its pages. -/
def AbsenceSeen (answers : MemberAnswers) (handle : String) : Prop :=
  ∃ n < 20, GoOn answers handle 0 n ∧ ∃ res, answers n = some res ∧ res.Read ∧ some handle ∉ res.items ∧
    res.hasMore = false

/-- One of the twenty pages decides: it is an error, it has the user, or it is the last. -/
def DecidedInTime (answers : MemberAnswers) (handle : String) : Prop :=
  ∃ n < 20, GoOn answers handle 0 n ∧ ∀ res, answers n = some res → res.Read → some handle ∉ res.items →
    res.hasMore = false

/-- The verdict of a page that does not go on. -/
def pageVerdict (handle : String) : Option MembersPage → Option Bool
  | none => none
  | some res =>
    if res.code ≠ some 0 ∧ res.code ≠ none then none else if some handle ∈ res.items then some true else some false

theorem memberOf_goesOn {answers : MemberAnswers} {handle : String} {pages page : ℕ} {res : MembersPage}
    (hres : answers page = some res) (h : res.GoesOn handle) :
    memberOf answers handle (pages + 1) page = memberOf answers handle pages (page + 1) := by
  have hcode : ¬ (res.code ≠ some 0 ∧ res.code ≠ none) := fun hc => h.read.elim hc.1 hc.2
  rw [memberOf, hres]
  simp [hcode, h.absent, h.more, h.token]

theorem memberOf_ends {answers : MemberAnswers} {handle : String} {pages page : ℕ}
    (h : ∀ res, answers page = some res → ¬ res.GoesOn handle) :
    memberOf answers handle (pages + 1) page = pageVerdict handle (answers page) := by
  rw [memberOf]
  cases hres : answers page with
  | none => rfl
  | some res =>
    simp only [pageVerdict]
    split
    · rfl
    · rename_i hcode
      split
      · rfl
      · rename_i habsent
        rw [if_pos]
        rw [Bool.or_eq_true, Bool.not_eq_true', Bool.not_eq_true']
        by_contra hnext
        simp only [not_or, Bool.not_eq_false] at hnext
        have hread : res.Read := by
          unfold MembersPage.Read
          tauto
        exact h res hres ⟨hread, habsent, hnext.1, hnext.2⟩

/-- **A listing comes to the verdict of the first page that does not go on**; to `false` when all do. -/
theorem pages_verdict (answers : MemberAnswers) (handle : String) (pages page : ℕ) :
    (GoOn answers handle page pages ∧ memberOf answers handle pages page = some false) ∨
      ∃ n < pages, GoOn answers handle page n ∧ (∀ res, answers (page + n) = some res → ¬ res.GoesOn handle) ∧
        memberOf answers handle pages page = pageVerdict handle (answers (page + n)) := by
  induction pages generalizing page with
  | zero => exact .inl ⟨fun i hi => absurd hi (Nat.not_lt_zero i), rfl⟩
  | succ pages ih =>
    by_cases hfirst : ∃ res, answers page = some res ∧ res.GoesOn handle
    · obtain ⟨res, hres, hgoes⟩ := hfirst
      have hmore : ∀ n, GoOn answers handle (page + 1) n → GoOn answers handle page (n + 1) := by
        intro n hn i hi
        cases i with
        | zero => exact ⟨res, hres, hgoes⟩
        | succ i =>
          obtain ⟨res', hres', hgoes'⟩ := hn i (by omega)
          exact ⟨res', by rw [← hres']; congr 1; omega, hgoes'⟩
      rw [memberOf_goesOn hres hgoes]
      rcases ih (page + 1) with ⟨hall, hfalse⟩ | ⟨n, hn, hon, hend, hverdict⟩
      · exact .inl ⟨hmore pages hall, hfalse⟩
      · have hpage : page + (n + 1) = page + 1 + n := by omega
        rw [← hpage] at hend hverdict
        exact .inr ⟨n + 1, by omega, hmore n hon, hend, hverdict⟩
    · have hend : ∀ res, answers page = some res → ¬ res.GoesOn handle := fun res hres hgoes =>
        hfirst ⟨res, hres, hgoes⟩
      exact .inr ⟨0, by omega, fun i hi => absurd hi (Nat.not_lt_zero i), hend, memberOf_ends hend⟩

theorem GoOn.unique {answers : MemberAnswers} {handle : String} {n m : ℕ} (hn : GoOn answers handle 0 n)
    (hm : GoOn answers handle 0 m) (hendn : ∀ res, answers n = some res → ¬ res.GoesOn handle)
    (hendm : ∀ res, answers m = some res → ¬ res.GoesOn handle) : n = m := by
  have hle : ∀ {a b : ℕ}, GoOn answers handle 0 b → (∀ res, answers a = some res → ¬ res.GoesOn handle) → b ≤ a := by
    intro a b hb hend
    by_contra hlt
    obtain ⟨res, hres, hgoes⟩ := hb a (by omega)
    rw [Nat.zero_add] at hres
    exact hend res hres hgoes
  exact le_antisymm (hle hn hendm) (hle hm hendn)

theorem not_goesOn {res : MembersPage} {handle : String}
    (h : res.Read → some handle ∉ res.items → res.hasMore = false) : ¬ res.GoesOn handle := by
  intro hgoes
  have hlast := h hgoes.read hgoes.absent
  rw [hgoes.more] at hlast
  cases hlast

/-- **`false` means an absence that was seen exactly when a page decides in time.** -/
theorem absence_seen_iff (answers : MemberAnswers) (handle : String) :
    (memberOf answers handle 20 0 = some false → AbsenceSeen answers handle) ↔ DecidedInTime answers handle := by
  rcases pages_verdict answers handle 20 0 with ⟨hall, hfalse⟩ | ⟨n, hn, hon, hend, hverdict⟩
  · -- no page decides
    have hno : ∀ k < 20, ∀ res, answers k = some res → res.GoesOn handle := by
      intro k hk res hres
      obtain ⟨res', hres', hgoes⟩ := hall k hk
      rw [Nat.zero_add] at hres'
      obtain rfl := Option.some.inj (hres.symm.trans hres')
      exact hgoes
    refine iff_of_false (fun h => ?_) fun h => ?_
    · obtain ⟨k, hk, -, res, hres, hread, habsent, hlast⟩ := h hfalse
      exact not_goesOn (fun _ _ => hlast) (hno k hk res hres)
    · obtain ⟨k, hk, -, hdecides⟩ := h
      obtain ⟨res, hres, -⟩ := hall k hk
      rw [Nat.zero_add] at hres
      exact not_goesOn (hdecides res hres) (hno k hk res hres)
  · rw [Nat.zero_add] at hend hverdict
    rw [hverdict]
    constructor
    · intro h
      refine ⟨n, hn, hon, fun res hres hread habsent => ?_⟩
      have hcode : ¬ (res.code ≠ some 0 ∧ res.code ≠ none) := fun hc => hread.elim hc.1 hc.2
      have hfalse : pageVerdict handle (answers n) = some false := by simp [pageVerdict, hres, hcode, habsent]
      obtain ⟨k, hk, hgo, res', hres', hread', habsent', hlast⟩ := h hfalse
      have hendk : ∀ r, answers k = some r → ¬ r.GoesOn handle := by
        intro r hr
        obtain rfl := Option.some.inj (hr.symm.trans hres')
        exact not_goesOn fun _ _ => hlast
      obtain rfl := GoOn.unique hon hgo hend hendk
      obtain rfl := Option.some.inj (hres.symm.trans hres')
      exact hlast
    · intro h hfalse
      obtain ⟨k, hk, hgo, hdecides⟩ := h
      have hendk : ∀ r, answers k = some r → ¬ r.GoesOn handle := fun r hr => not_goesOn (hdecides r hr)
      obtain rfl := GoOn.unique hon hgo hend hendk
      cases hres : answers n with
      | none =>
        rw [hres] at hfalse
        cases hfalse
      | some res =>
        rw [hres] at hfalse
        simp only [pageVerdict] at hfalse
        split at hfalse
        · cases hfalse
        · rename_i hcode
          split at hfalse
          · cases hfalse
          · rename_i habsent
            have hread : res.Read := by
              unfold MembersPage.Read
              tauto
            exact ⟨n, hn, hgo, res, hres, hread, habsent, hdecides res hres hread habsent⟩

/-! ### The cache and the gate -/

/-- A question for a membership. -/
structure MembershipQuestion where
  channelType : String
  groupPlatformId : String
  userHandle : String

/-- The key of the cache. -/
def MembershipQuestion.key (q : MembershipQuestion) : String :=
  s!"{q.channelType}|{q.groupPlatformId}|{q.userHandle}"

/-- The ids have no bar in them. -/
def MembershipQuestion.Plain (q : MembershipQuestion) : Prop :=
  '|' ∉ q.groupPlatformId.toList ∧ '|' ∉ q.userHandle.toList

theorem membershipKey_inj {p q : MembershipQuestion} (hp : p.Plain) (hq : q.Plain) (h : p.key = q.key) : p = q := by
  obtain ⟨c, g, u⟩ := p
  obtain ⟨c', g', u'⟩ := q
  have hsplit : (c.toList ++ '|' :: g.toList) ++ '|' :: u.toList =
      (c'.toList ++ '|' :: g'.toList) ++ '|' :: u'.toList := by
    simpa [MembershipQuestion.key, toString] using congrArg String.toList h
  obtain ⟨hfront, huser⟩ := append_bar_inj hp.2 hq.2 hsplit
  obtain ⟨hchannel, hgroup⟩ := append_bar_inj hp.1 hq.1 hfront
  obtain rfl : c = c' := String.toList_inj.mp hchannel
  obtain rfl : g = g' := String.toList_inj.mp hgroup
  obtain rfl : u = u' := String.toList_inj.mp huser
  rfl

def membershipCacheTtlMs : ℕ := 30000

structure CachedMembership where
  value : Bool
  expiresAt : ℕ

/-- A listing that was asked for, with the time of the call. -/
structure Reading where
  question : MembershipQuestion
  askedAt : ℕ
  answers : MemberAnswers

/-- A grant that was taken away, with the time at which the cache was looked into. -/
structure MembershipRefusal where
  question : MembershipQuestion
  lookedAt : ℕ

/-- A call of `deliverRosterMessage` at its membership check. -/
inductive MembershipCall where
  | waiting (question : MembershipQuestion) (now : ℕ)
  | answered (question : MembershipQuestion) (now : ℕ) (stillMember : Option Bool)

/-- The cache, the calls, and what has been read and refused so far. -/
structure MembershipDesk where
  cache : String → Option CachedMembership
  calls : ℕ → Option MembershipCall
  readings : List Reading
  refusals : List MembershipRefusal

def MembershipDesk.empty : MembershipDesk := ⟨fun _ => none, fun _ => none, [], []⟩

inductive MembershipEvent where
  /-- `isMemberCached` up to the adapter's call; an adapter may have no `isMember`. -/
  | look (i : ℕ) (question : MembershipQuestion) (now : ℕ) (supported : Bool)
  /-- The adapter has read what there is to read. -/
  | answer (i : ℕ) (answers : MemberAnswers)
  /-- What `deliverRosterMessage` makes of the answer. -/
  | judge (i : ℕ)

def membershipStep (st : MembershipDesk) : MembershipEvent → Option MembershipDesk
  | .look i question now supported =>
    if (st.calls i).isSome then none
    else if !supported then some { st with calls := Function.update st.calls i (some (.answered question now none)) }
    else match (st.cache question.key).filter fun hit => now < hit.expiresAt with
      | some hit =>
        some { st with calls := Function.update st.calls i (some (.answered question now (some hit.value))) }
      | none => some { st with calls := Function.update st.calls i (some (.waiting question now)) }
  | .answer i answers => match st.calls i with
    | some (.waiting question now) =>
      let value := isMember answers question.groupPlatformId question.userHandle
      some { st with
        -- only a definite answer is kept
        cache := match value with
          | some v => Function.update st.cache question.key (some ⟨v, now + membershipCacheTtlMs⟩)
          | none => st.cache
        calls := Function.update st.calls i (some (.answered question now value))
        readings := ⟨question, now, answers⟩ :: st.readings }
    | _ => none
  | .judge i => match st.calls i with
    | some (.answered question now (some false)) =>
      some { st with
        cache := Function.update st.cache question.key none
        calls := Function.update st.calls i none
        refusals := ⟨question, now⟩ :: st.refusals }
    | some (.answered _ _ _) => some { st with calls := Function.update st.calls i none }
    | _ => none

/-- A complete listing without the user was asked for within the half minute before. -/
def MembershipDesk.Seen (st : MembershipDesk) (question : MembershipQuestion) (lookedAt : ℕ) : Prop :=
  ∃ r ∈ st.readings, r.question = question ∧ AbsenceSeen r.answers (trim question.userHandle) ∧
    lookedAt < r.askedAt + membershipCacheTtlMs

/-- No grant was taken away from a person whose absence was not seen. -/
def RefusalsSeen (st : MembershipDesk) : Prop := ∀ r ∈ st.refusals, st.Seen r.question r.lookedAt

/-- The group's members are asked for at all. -/
def Asked (platformId userHandle : String) : Prop :=
  startsWith (trim userHandle) "ou_" = true ∧ (groupKeyChat platformId).isSome = true

/-- The ids of a question are plain, and its listing decides in time. -/
def AnsweredInTime (st : MembershipDesk) : MembershipEvent → Prop
  | .look _ question _ _ => question.Plain
  | .answer i answers => ∀ question now, st.calls i = some (.waiting question now) →
    Asked question.groupPlatformId question.userHandle → DecidedInTime answers (trim question.userHandle)
  | .judge _ => True

/-- **What the adapter reports.** -/
theorem isMember_seen_iff (answers : MemberAnswers) (platformId userHandle : String) :
    (isMember answers platformId userHandle = some false → AbsenceSeen answers (trim userHandle)) ↔
      (Asked platformId userHandle → DecidedInTime answers (trim userHandle)) := by
  unfold isMember Asked
  dsimp only
  cases hhandle : startsWith (trim userHandle) "ou_" with
  | false => simp
  | true =>
    cases hchat : groupKeyChat platformId with
    | none => simp
    | some chatId => simpa using absence_seen_iff answers (trim userHandle)

/-- A `false` in the cache or in the hands of a call was seen. -/
structure MembershipInv (st : MembershipDesk) : Prop where
  cached : ∀ key c, st.cache key = some c → c.value = false → ∃ r ∈ st.readings, r.question.key = key ∧
    r.question.Plain ∧ AbsenceSeen r.answers (trim r.question.userHandle) ∧
      c.expiresAt = r.askedAt + membershipCacheTtlMs
  waiting : ∀ i question now, st.calls i = some (.waiting question now) → question.Plain
  answered : ∀ i question now, st.calls i = some (.answered question now (some false)) → st.Seen question now
  refused : RefusalsSeen st

theorem MembershipDesk.Seen.more {st st' : MembershipDesk} (h : st.readings ⊆ st'.readings)
    {question : MembershipQuestion} {lookedAt : ℕ} (hs : st.Seen question lookedAt) : st'.Seen question lookedAt := by
  obtain ⟨r, hr, hrest⟩ := hs
  exact ⟨r, h hr, hrest⟩

theorem MembershipInv.setCall {st : MembershipDesk} (h : MembershipInv st) (i : ℕ) (call : Option MembershipCall)
    {cache : String → Option CachedMembership} (hcache : ∀ key c, cache key = some c → st.cache key = some c)
    (hwaiting : ∀ question now, call = some (.waiting question now) → question.Plain)
    (hanswered : ∀ question now, call = some (.answered question now (some false)) → st.Seen question now) :
    MembershipInv { st with cache := cache, calls := Function.update st.calls i call } := by
  refine ⟨fun key c hc => h.cached key c (hcache key c hc), fun j question now hj => ?_, fun j question now hj => ?_,
    h.refused⟩
  · by_cases hji : j = i
    · subst hji
      exact hwaiting question now (by simpa using hj)
    · exact h.waiting j question now (by simpa [Function.update_of_ne hji] using hj)
  · by_cases hji : j = i
    · subst hji
      exact hanswered question now (by simpa using hj)
    · exact h.answered j question now (by simpa [Function.update_of_ne hji] using hj)

theorem membershipInv_empty : MembershipInv .empty where
  cached _ _ h := (nomatch h)
  waiting _ _ _ h := (nomatch h)
  answered _ _ _ h := (nomatch h)
  refused _ h := (nomatch h)

theorem membershipInv_step (st : MembershipDesk) (e : MembershipEvent) (st' : MembershipDesk) (h : MembershipInv st)
    (hs : membershipStep st e = some st') (hC : AnsweredInTime st e) : MembershipInv st' := by
  cases e with
  | look i question now supported =>
    simp only [membershipStep] at hs
    split at hs
    · cases hs
    split at hs
    · obtain rfl := Option.some.inj hs
      exact h.setCall i _ (fun _ _ hc => hc) (fun _ _ hq => (nomatch hq)) fun _ _ hq => (nomatch hq)
    split at hs
    · rename_i hit hfound
      obtain rfl := Option.some.inj hs
      refine h.setCall i _ (fun _ _ hc => hc) (fun _ _ hq => (nomatch hq)) fun q n hq => ?_
      obtain ⟨hcache, hlive⟩ := Option.filter_eq_some_iff.mp hfound
      simp only [Option.some.injEq, MembershipCall.answered.injEq] at hq
      obtain ⟨rfl, rfl, hvalue⟩ := hq
      obtain ⟨r, hr, hkey, hplain, hseen, hexpires⟩ := h.cached _ _ hcache hvalue
      -- the cached listing is of this very question
      obtain rfl := membershipKey_inj hplain hC hkey
      exact ⟨r, hr, rfl, hseen, by simpa [hexpires] using hlive⟩
    · obtain rfl := Option.some.inj hs
      refine h.setCall i _ (fun _ _ hc => hc) (fun q n hq => ?_) fun _ _ hq => (nomatch hq)
      simp only [Option.some.injEq, MembershipCall.waiting.injEq] at hq
      exact hq.1 ▸ hC
  | answer i answers =>
    simp only [membershipStep] at hs
    split at hs
    · rename_i question now hcall
      obtain rfl := Option.some.inj hs
      have hplain := h.waiting i question now hcall
      have hmore : st.readings ⊆ ⟨question, now, answers⟩ :: st.readings := List.subset_cons_self _ _
      have hseen : isMember answers question.groupPlatformId question.userHandle = some false →
          AbsenceSeen answers (trim question.userHandle) :=
        (isMember_seen_iff answers _ _).mpr (hC question now hcall)
      refine ⟨fun key c hc hfalse => ?_, fun j q n hj => ?_, fun j q n hj => ?_,
        fun r hr => (h.refused r hr).more hmore⟩
      · have hold : st.cache key = some c → ∃ r ∈ ⟨question, now, answers⟩ :: st.readings, r.question.key = key ∧
            r.question.Plain ∧ AbsenceSeen r.answers (trim r.question.userHandle) ∧
            c.expiresAt = r.askedAt + membershipCacheTtlMs := by
          intro hc
          obtain ⟨r, hr, hrest⟩ := h.cached key c hc hfalse
          exact ⟨r, hmore hr, hrest⟩
        cases hvalue : isMember answers question.groupPlatformId question.userHandle with
        | none =>
          simp only [hvalue] at hc
          exact hold hc
        | some v =>
          simp only [hvalue] at hc
          by_cases hkey : key = question.key
          · subst hkey
            rw [Function.update_self] at hc
            obtain rfl := Option.some.inj hc
            refine ⟨_, List.mem_cons_self, rfl, hplain, hseen ?_, rfl⟩
            rw [hvalue]
            exact congrArg some hfalse
          · rw [Function.update_of_ne hkey] at hc
            exact hold hc
      · by_cases hji : j = i
        · subst hji
          simp at hj
        · exact h.waiting j q n (by simpa [Function.update_of_ne hji] using hj)
      · by_cases hji : j = i
        · subst hji
          simp only [Function.update_self, Option.some.injEq, MembershipCall.answered.injEq] at hj
          obtain ⟨rfl, rfl, hvalue⟩ := hj
          exact ⟨_, List.mem_cons_self, rfl, hseen hvalue, by simp [membershipCacheTtlMs]⟩
        · exact (h.answered j q n (by simpa [Function.update_of_ne hji] using hj)).more hmore
    · cases hs
  | judge i =>
    simp only [membershipStep] at hs
    split at hs
    · rename_i question now hcall
      obtain rfl := Option.some.inj hs
      have hless : ∀ key c, Function.update st.cache question.key none key = some c → st.cache key = some c := by
        intro key c hc
        by_cases hkey : key = question.key
        · subst hkey
          simp at hc
        · rwa [Function.update_of_ne hkey] at hc
      have hset := h.setCall i none hless (fun _ _ hq => (nomatch hq)) fun _ _ hq => (nomatch hq)
      refine ⟨hset.cached, hset.waiting, hset.answered, fun r hr => ?_⟩
      rcases List.mem_cons.mp hr with rfl | hr
      · exact h.answered i question now hcall
      · exact h.refused r hr
    · obtain rfl := Option.some.inj hs
      exact h.setCall i _ (fun _ _ hc => hc) (fun _ _ hq => (nomatch hq)) fun _ _ hq => (nomatch hq)
    · cases hs

/-- **Absence is reported only when it was seen**: by the adapter exactly when a page decides in time, and so by the
gate, in every run in which each listing does. -/
theorem absence_reported_when_seen {es : List MembershipEvent} {st : MembershipDesk}
    (hrun : Trans.run membershipStep .empty es = some st) (hC : Trans.Along membershipStep AnsweredInTime .empty es) :
    (∀ answers platformId userHandle,
      (isMember answers platformId userHandle = some false → AbsenceSeen answers (trim userHandle)) ↔
        (Asked platformId userHandle → DecidedInTime answers (trim userHandle))) ∧
    RefusalsSeen st := by
  refine ⟨isMember_seen_iff, ?_⟩
  have halways : Trans.Always membershipStep RefusalsSeen .empty es :=
    Trans.always_of_along (fun _ h => h.refused) membershipInv_step membershipInv_empty hC
  exact halways es [] st (List.append_nil es).symm hrun

/-- One page, with somebody else on it. -/
def onePage : MemberAnswers := fun _ => some ⟨some 0, [some "ou_v"], false, none⟩

/-- Twenty pages with nobody on them, and then the user. -/
def manyPages : MemberAnswers := fun n =>
  if n < 20 then some ⟨some 0, [], true, some "next"⟩ else some ⟨some 0, [some "ou_u"], false, none⟩

def memberCheck (answers : MemberAnswers) : List MembershipEvent :=
  [.look 0 ⟨"feishu", "feishu:oc_1", "ou_u"⟩ 0 true, .answer 0 answers, .judge 0]

theorem absence_reported_when_seen_sample :
    ∃ st, Trans.run membershipStep .empty (memberCheck onePage) = some st ∧ st.refusals ≠ [] ∧ RefusalsSeen st := by
  have hdecided : DecidedInTime onePage "ou_u" := by
    refine ⟨0, by omega, fun i hi => absurd hi (Nat.not_lt_zero i), fun res hres _ _ => ?_⟩
    obtain rfl := Option.some.inj hres
    rfl
  have halong : Trans.Along membershipStep AnsweredInTime .empty (memberCheck onePage) := by
    have hplain : MembershipQuestion.Plain ⟨"feishu", "feishu:oc_1", "ou_u"⟩ :=
      ⟨by decide, by decide⟩
    refine ⟨hplain, fun st hst => ⟨fun question now hcall _ => ?_, fun _ _ => ⟨trivial, fun _ _ => trivial⟩⟩⟩
    obtain rfl := Option.some.inj hst
    have hquestion : MembershipQuestion.mk "feishu" "feishu:oc_1" "ou_u" = question := by
      have hsame := Option.some.inj hcall
      injection hsame
    have htrim : trim "ou_u" = "ou_u" := by decide
    rw [← hquestion, htrim]
    exact hdecided
  have hrun : Trans.run membershipStep .empty (memberCheck onePage) = some _ := rfl
  exact ⟨_, hrun, by simp, (absence_reported_when_seen hrun halong).2⟩

/-- The user is on the twenty-first page, is reported absent, and loses the grant. -/
theorem member_reported_absent :
    isMember manyPages "feishu:oc_1" "ou_u" = some false ∧ ¬ AbsenceSeen manyPages "ou_u" ∧
      ∃ st, Trans.run membershipStep .empty (memberCheck manyPages) = some st ∧ ¬ RefusalsSeen st := by
  have htrim : trim "ou_u" = "ou_u" := by decide
  have hunseen : ¬ AbsenceSeen manyPages "ou_u" := by
    intro h
    obtain ⟨n, hn, -, res, hres, -, -, hlast⟩ := h
    rw [manyPages, if_pos hn] at hres
    obtain rfl := Option.some.inj hres
    cases hlast
  have hfalse : isMember manyPages "feishu:oc_1" "ou_u" = some false := by decide
  refine ⟨hfalse, hunseen, ?_⟩
  have hrun : Trans.run membershipStep .empty (memberCheck manyPages) = some
      { MembershipDesk.empty with
        cache := fun _ => none
        readings := [⟨⟨"feishu", "feishu:oc_1", "ou_u"⟩, 0, manyPages⟩]
        refusals := [⟨⟨"feishu", "feishu:oc_1", "ou_u"⟩, 0⟩] } := by
    simp [Trans.run, memberCheck, membershipStep, MembershipDesk.empty, hfalse]
  refine ⟨_, hrun, fun h => ?_⟩
  obtain ⟨r, hr, -, hseen, -⟩ := h _ List.mem_cons_self
  obtain rfl := List.mem_singleton.mp hr
  rw [htrim] at hseen
  exact hunseen hseen

end AgentDesk
