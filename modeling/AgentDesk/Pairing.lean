/-
# Calls and their returns

A sequence of calls and returns, each with an id, and of other things. It is paired when nothing is
returned that was not called before, and every call is returned once, later.

* `Paired.append_round`: a round of new calls and then their returns, in order, keeps a sequence paired.
* `Paired.suffix`: so does cutting off a beginning that keeps back no call of a later return.
-/
import Mathlib.Data.List.Nodup

namespace Pairing

inductive Token (ι : Type*) where
  | call (id : ι)
  | ret (id : ι)
  | other
  deriving DecidableEq

variable {ι : Type*}

def Token.called? : Token ι → Option ι
  | .call id => some id
  | _ => none

/-- The ids that are called, in order. -/
def callIds (l : List (Token ι)) : List ι := l.filterMap Token.called?

theorem mem_callIds {l : List (Token ι)} {id : ι} : id ∈ callIds l ↔ .call id ∈ l := by
  rw [callIds, List.mem_filterMap]
  constructor
  · rintro ⟨t, ht, hid⟩
    cases t with
    | call id' =>
      obtain rfl := Option.some.inj hid
      exact ht
    | ret _ => cases hid
    | other => cases hid
  · exact fun h => ⟨_, h, rfl⟩

variable [DecidableEq ι]

structure Paired (l : List (Token ι)) : Prop where
  called : ∀ before id after, l = before ++ .ret id :: after → .call id ∈ before
  returned : ∀ before id after, l = before ++ .call id :: after → after.count (.ret id) = 1

/-- No call in `before` is returned in `after`. -/
def CleanCut (before after : List (Token ι)) : Prop := ∀ id, .call id ∈ before → .ret id ∉ after

theorem paired_of_other {l : List (Token ι)} (h : ∀ t ∈ l, t = .other) : Paired l where
  called before id after he := by
    have hmem : Token.ret id ∈ l := he ▸ List.mem_append_right before (.head _)
    cases h _ hmem
  returned before id after he := by
    have hmem : Token.call id ∈ l := he ▸ List.mem_append_right before (.head _)
    cases h _ hmem

theorem append_eq_mid {α : Type*} {l r before after : List α} {t : α} (h : l ++ r = before ++ t :: after) :
    (∃ rest, l = before ++ t :: rest ∧ after = rest ++ r) ∨ ∃ rest, before = l ++ rest ∧ r = rest ++ t :: after := by
  rcases List.append_eq_append_iff.mp h with ⟨rest, hbefore, hr⟩ | ⟨rest, hl, hafter⟩
  · exact .inr ⟨rest, hbefore, hr⟩
  · cases rest with
    | nil =>
      rw [List.append_nil] at hl
      exact .inr ⟨[], by rw [List.append_nil, hl], hafter.symm⟩
    | cons t' rest =>
      obtain ⟨rfl, hafter'⟩ := List.cons.inj hafter
      exact .inl ⟨rest, hl, hafter'⟩

/-- **A round keeps a sequence paired.** New calls are made, among other things, and returned in order. -/
theorem Paired.append_round {l calls : List (Token ι)} (hl : Paired l) (hcalls : ∀ id, Token.ret id ∉ calls)
    (hnodup : (callIds calls).Nodup) (hfresh : ∀ id ∈ callIds calls, Token.call id ∉ l) :
    Paired (l ++ (calls ++ (callIds calls).map .ret)) := by
  have hret : ∀ id, (Token.ret id : Token ι) ∈ (callIds calls).map .ret ↔ id ∈ callIds calls := by
    intro id
    rw [List.mem_map]
    constructor
    · rintro ⟨id', hid', he⟩
      cases he
      exact hid'
    · exact fun h => ⟨id, h, rfl⟩
  refine ⟨fun before id after he => ?_, fun before id after he => ?_⟩
  · rcases append_eq_mid he with ⟨rest, hrest, -⟩ | ⟨rest, rfl, hrest⟩
    · exact hl.called before id rest hrest
    · rcases append_eq_mid hrest with ⟨rest', hrest', -⟩ | ⟨rest', rfl, hrest'⟩
      · exact absurd (hrest' ▸ List.mem_append_right rest (.head _)) (hcalls id)
      · have hid : id ∈ callIds calls := (hret id).mp (hrest' ▸ List.mem_append_right rest' (.head _))
        exact List.mem_append_right l (List.mem_append_left rest' (mem_callIds.mp hid))
  · have hnone : calls.count (.ret id) = 0 := List.count_eq_zero.mpr (hcalls id)
    rcases append_eq_mid he with ⟨rest, hrest, rfl⟩ | ⟨rest, rfl, hrest⟩
    · have hid : id ∉ callIds calls := fun hid =>
        hfresh id hid (hrest ▸ List.mem_append_right before (.head _))
      have hlast : ((callIds calls).map Token.ret).count (.ret id) = 0 :=
        List.count_eq_zero.mpr fun h => hid ((hret id).mp h)
      rw [List.count_append, List.count_append, hl.returned before id rest hrest, hnone, hlast]
    · rcases append_eq_mid hrest with ⟨rest', hrest', rfl⟩ | ⟨rest', -, hrest'⟩
      · have hid : id ∈ callIds calls := mem_callIds.mpr (hrest' ▸ List.mem_append_right rest (.head _))
        have hinj : Function.Injective (Token.ret : ι → Token ι) := fun a b hab => Token.ret.inj hab
        have hone : ((callIds calls).map Token.ret).count (.ret id) = 1 :=
          List.count_eq_one_of_mem (hnodup.map hinj) ((hret id).mpr hid)
        have hafter : rest'.count (.ret id) = 0 := by
          rw [hrest', List.count_append, List.count_cons] at hnone
          omega
        rw [List.count_append, hafter, hone]
      · obtain ⟨id', -, hid'⟩ := List.mem_map.mp (hrest' ▸ List.mem_append_right rest' (.head _))
        cases hid'

/-- **A clean cut keeps the rest paired.** -/
theorem Paired.suffix {before after : List (Token ι)} (h : Paired (before ++ after)) (hcut : CleanCut before after) :
    Paired after where
  called first id rest he := by
    have hcall : Token.call id ∈ before ++ first :=
      h.called (before ++ first) id rest (by rw [he, List.append_assoc])
    rcases List.mem_append.mp hcall with hbefore | hfirst
    · have hret : Token.ret id ∈ after := he ▸ List.mem_append_right first (.head _)
      exact absurd hret (hcut id hbefore)
    · exact hfirst
  returned first id rest he := h.returned (before ++ first) id rest (by rw [he, List.append_assoc])

end Pairing
