/-
# What the payload of the routing model keeps to

For all messages, workers and bounds: `buildRoutingContext` throws its one error, or gives a text that is no longer
than allowed, with the latest messages in their order and the trigger among them, whose text is cut only when
nothing is left of the others'. It is markup, unless a text was cut in an escaped unit.

At most two views are left when a text is cut, so where it is cut follows from the lengths alone: `cutAt`.

* `selectMessages_spec`: the latest messages, or the trigger and the ones after the first of them.
* `dropOldest_spec`: what is too long has one row of context at most.
* `finalViews_pair`, `finalViews_single`: what is cut.
* `routing_context_iff`: **the payload keeps to all of it, exactly when a text is cut between units.**
* `cut_in_unit`: a trigger that ends in `&am`.
-/
import AgentDesk.RoutingMarkup

namespace AgentDesk.Routing

open JsonText

/-! ### Which messages are shown -/

section Selection

variable {chat : List MessageInRow} (hids : (chat.map (·.id)).Nodup)

include hids

theorem inputOrder_split {before after : List MessageInRow} {m : MessageInRow} (h : chat = before ++ m :: after) :
    inputOrder chat m.id = before.length := by
  have hnot : ∀ p ∈ (after.zipIdx (before.length + 1)).reverse, p.1.id ≠ m.id := by
    intro p hp heq
    have hmem : p.1 ∈ after := List.fst_mem_of_mem_zipIdx (List.mem_reverse.mp hp)
    rw [h, List.map_append, List.map_cons, List.nodup_append] at hids
    exact (List.nodup_cons.mp hids.2.1).1 (heq ▸ List.mem_map_of_mem hmem)
  have hfind : chat.zipIdx.reverse.find? (fun p => p.1.id = m.id) = some (m, before.length) := by
    rw [h, List.zipIdx_append, List.zipIdx_cons, List.reverse_append, List.reverse_cons, List.append_assoc,
      List.find?_append, Option.or_eq_some_iff]
    refine .inr ⟨?_, ?_⟩
    · rw [List.find?_eq_none]
      intro p hp
      simpa using hnot p (by simpa using hp)
    · simp
  rw [inputOrder, hfind]
  rfl

theorem inputOrder_getElem {i : ℕ} (hi : i < chat.length) : inputOrder chat chat[i].id = i := by
  have hsplit : chat = chat.take i ++ chat[i] :: chat.drop (i + 1) := by
    rw [List.cons_getElem_drop_succ, List.take_append_drop]
  rw [inputOrder_split hids hsplit, List.length_take]
  omega

theorem inputOrder_inj {a b : MessageInRow} (ha : a ∈ chat) (hb : b ∈ chat)
    (h : inputOrder chat a.id = inputOrder chat b.id) : a = b := by
  obtain ⟨i, hi, rfl⟩ := List.getElem_of_mem ha
  obtain ⟨j, hj, rfl⟩ := List.getElem_of_mem hb
  rw [inputOrder_getElem hids hi, inputOrder_getElem hids hj] at h
  subst h
  rfl

/-- Rows in their order are sorted by it. -/
theorem pairwise_inputOrder {l : List MessageInRow} (h : l.Sublist chat) :
    l.Pairwise fun a b => decide (inputOrder chat a.id ≤ inputOrder chat b.id) = true := by
  have hchat : chat.Pairwise fun a b => decide (inputOrder chat a.id ≤ inputOrder chat b.id) = true := by
    rw [List.pairwise_iff_getElem]
    intro i j hi hj hij
    rw [inputOrder_getElem hids hi, inputOrder_getElem hids hj]
    exact decide_eq_true (Nat.le_of_lt hij)
  exact hchat.sublist h

theorem eq_of_id {a b : MessageInRow} (ha : a ∈ chat) (hb : b ∈ chat) (h : a.id = b.id) : a = b :=
  List.inj_on_of_nodup_map hids ha hb h

/-- **The messages that are shown**: the latest, in their order, with the anchor. -/
theorem selectMessages_spec {maxMessages : ℕ} (hmax : 1 ≤ maxMessages) :
    (selectMessages chat maxMessages).Sublist chat ∧ (selectMessages chat maxMessages).length ≤ maxMessages ∧
      ∀ a, anchorOf chat = some a → a ∈ selectMessages chat maxMessages := by
  have hlatest : latest chat maxMessages = chat.drop (chat.length - maxMessages) := if_neg (by omega)
  have hsub : (latest chat maxMessages).Sublist chat := by
    rw [hlatest]
    exact List.drop_sublist _ _
  have hlength : (latest chat maxMessages).length ≤ maxMessages := by
    rw [hlatest, List.length_drop]
    omega
  rw [selectMessages]
  cases hanchor : anchorOf chat with
  | none => exact ⟨hsub, hlength, nofun⟩
  | some anchor =>
    have hmem : anchor ∈ chat := by
      rcases Option.or_eq_some_iff.mp hanchor with hfind | ⟨-, hlast⟩
      · exact List.mem_of_find?_eq_some hfind
      · exact List.mem_of_getLast? hlast
    dsimp only
    by_cases hany : ((latest chat maxMessages).any fun m => m.id = anchor.id) = true
    · rw [if_pos hany]
      refine ⟨hsub, hlength, fun a ha => ?_⟩
      obtain rfl := Option.some.inj ha
      obtain ⟨m, hm, hid⟩ := List.any_eq_true.mp hany
      rwa [← eq_of_id hids (hsub.subset hm) hmem (of_decide_eq_true hid)]
    · rw [if_neg hany]
      have hnot : anchor ∉ chat.drop (chat.length - maxMessages) := by
        intro h
        rw [← hlatest] at h
        exact hany (List.any_eq_true.mpr ⟨anchor, h, decide_eq_true rfl⟩)
      have hbefore : anchor ∈ chat.take (chat.length - maxMessages) := by
        rw [← List.take_append_drop (chat.length - maxMessages) chat] at hmem
        exact (List.mem_append.mp hmem).resolve_right hnot
      have horder : (anchor :: (latest chat maxMessages).drop 1).Sublist chat := by
        have hsplit := List.take_append_drop (chat.length - maxMessages) chat
        rw [hlatest]
        conv_rhs => rw [← hsplit]
        exact (List.singleton_sublist.mpr hbefore).append (List.drop_sublist 1 _)
      have hsorted : ((latest chat maxMessages).drop 1 ++ [anchor]).mergeSort
          (fun a b => inputOrder chat a.id ≤ inputOrder chat b.id) = anchor :: (latest chat maxMessages).drop 1 := by
        have hperm := List.mergeSort_perm ((latest chat maxMessages).drop 1 ++ [anchor])
          fun a b => decide (inputOrder chat a.id ≤ inputOrder chat b.id)
        have hpairwise : (((latest chat maxMessages).drop 1 ++ [anchor]).mergeSort
            fun a b => inputOrder chat a.id ≤ inputOrder chat b.id).Pairwise
              fun a b => decide (inputOrder chat a.id ≤ inputOrder chat b.id) = true := List.pairwise_mergeSort
          (fun a b c hab hbc => decide_eq_true ((of_decide_eq_true hab).trans (of_decide_eq_true hbc)))
          (fun a b => by simpa using Nat.le_total (inputOrder chat a.id) (inputOrder chat b.id))
          ((latest chat maxMessages).drop 1 ++ [anchor])
        have hswap : ((latest chat maxMessages).drop 1 ++ [anchor]).Perm (anchor :: (latest chat maxMessages).drop 1) :=
          List.perm_append_singleton anchor _
        refine (hperm.trans hswap).eq_of_pairwise (fun a b ha hb hab hba => ?_) hpairwise (pairwise_inputOrder hids horder)
        have hmemA := horder.subset ((hperm.trans hswap).subset ha)
        exact inputOrder_inj hids hmemA (horder.subset hb)
          (Nat.le_antisymm (of_decide_eq_true hab) (of_decide_eq_true hba))
      rw [hsorted]
      refine ⟨horder, ?_, fun a ha => by rw [← Option.some.inj ha]; exact List.mem_cons_self⟩
      rw [List.length_cons, List.length_drop]
      omega

end Selection

section Context

variable (timezone : Option Text) (workers : List DestinationEntry) (maxChars : ℤ)

/-- **What is left when context was dropped**: the anchor, and one row of context at most, if it is too long still. -/
theorem dropOldest_spec (n : ℕ) {views : List View} (hn : views.length ≤ n) :
    (dropOldest timezone workers maxChars n views).Sublist views ∧
      (∀ view ∈ views, view.anchor = true → view ∈ dropOldest timezone workers maxChars n views) ∧
      (Exceeds timezone workers maxChars (dropOldest timezone workers maxChars n views) →
        ((dropOldest timezone workers maxChars n views).filter fun view => !view.anchor).length ≤ 1) := by
  induction n generalizing views with
  | zero =>
    obtain rfl := List.length_eq_zero_iff.mp (Nat.le_zero.mp hn)
    exact ⟨List.Sublist.refl _, fun view hview => absurd hview List.not_mem_nil, fun _ => Nat.zero_le 1⟩
  | succ n ih =>
    rw [dropOldest]
    by_cases hlong : Exceeds timezone workers maxChars views
    · rw [if_pos hlong]
      by_cases hone : (views.filter fun view => !view.anchor).length ≤ 1
      · rw [if_pos hone]
        exact ⟨List.Sublist.refl _, fun view hview _ => hview, fun _ => hone⟩
      · rw [if_neg hone]
        obtain ⟨other, hother⟩ := List.exists_mem_of_length_pos (Nat.lt_of_not_le fun h => hone (h.trans (Nat.zero_le 1)))
        obtain ⟨hmem, hcontext⟩ := List.mem_filter.mp hother
        have hlength : (views.eraseP fun view => !view.anchor).length = views.length - 1 :=
          List.length_eraseP_of_mem hmem hcontext
        have hshort : (views.eraseP fun view => !view.anchor).length ≤ n := by omega
        obtain ⟨hsub, hkeeps, hcount⟩ := ih hshort
        refine ⟨hsub.trans (List.eraseP_sublist ..), fun view hview hanchor => hkeeps view ?_ hanchor, hcount⟩
        exact (List.mem_eraseP_of_neg (by simp [hanchor])).mpr hview
    · rw [if_neg hlong]
      exact ⟨List.Sublist.refl _, fun view hview _ => hview, fun h => absurd h hlong⟩

/-! ### Lengths -/

/-- The view without its text. -/
def View.cleared (view : View) : View := { view with visibleText := [], truncated := false }

/-- What a view's text takes. -/
def View.cost (view : View) : ℕ := view.visibleText.length + if view.truncated then marker.length else 0

/-- A view whose text is cut. -/
def View.shown (view : View) (k : ℕ) : View := { view with visibleText := view.visibleText.take k, truncated := true }

/-- The length of all but the texts. -/
def frame (views : List View) : ℕ := (render timezone workers (views.map View.cleared)).length

theorem length_messageLine (view : View) :
    (messageLine view).length = (messageLine view.cleared).length + view.cost := by
  rw [messageLine, messageLine, View.cost]
  cases view.truncated with
  | true =>
    simp [View.cleared]
    omega
  | false =>
    simp [View.cleared]
    omega

theorem length_render (views : List View) :
    (render timezone workers views).length = frame timezone workers views + (views.map View.cost).sum := by
  have hmessages : (views.map View.cleared).map (·.msg) = views.map (·.msg) := by
    rw [List.map_map]
    rfl
  have hlines : (views.flatMap fun view => lineAfter (messageLine view)).length =
      ((views.map View.cleared).flatMap fun view => lineAfter (messageLine view)).length + (views.map View.cost).sum := by
    induction views with
    | nil => rfl
    | cons view views ih =>
      have hrest := ih (by rw [List.map_map]; rfl)
      have hline := length_messageLine view
      simp only [List.flatMap_cons, List.map_cons, List.length_append, lineAfter, List.length_cons, List.sum_cons] at hrest ⊢
      omega
  rw [frame, render_eq, render_eq, hmessages, List.length_append, List.length_append, List.length_append,
    List.length_append, hlines]
  omega

theorem exceeds_iff (views : List View) : Exceeds timezone workers maxChars views ↔
    maxChars < frame timezone workers views + ((views.map View.cost).sum : ℕ) := by
  rw [Exceeds, length_render, Nat.cast_add]

theorem truncate_view {view : View} (htruncated : view.truncated = false) {excess : ℤ} (hexcess : 0 < excess) :
    view.truncate excess = if view.visibleText = [] then view
      else view.shown (view.visibleText.length - excess - marker.length).toNat := by
  rw [View.truncate, htruncated]
  by_cases hnil : view.visibleText = []
  · rw [if_pos hnil, if_pos (.inr (by rw [hnil]; rfl))]
  · have hpos : ¬(excess ≤ 0 ∨ view.visibleText.length = 0) := by
      have := List.length_pos_iff.mpr hnil
      omega
    rw [if_neg hnil, if_neg hpos, View.shown]
    have hmax : (max 0 ((view.visibleText.length : ℤ) - excess - marker.length)).toNat =
        ((view.visibleText.length : ℤ) - excess - marker.length).toNat := by omega
    simp [hmax]

/-! ### What is cut -/

/-- A row of context and the anchor, in either order. -/
def pair (first : Bool) (other anchor : View) : List View := if first then [other, anchor] else [anchor, other]

variable {other anchor : View} (first : Bool)

theorem frame_pair (k l : ℕ) :
    frame timezone workers (pair first (other.shown k) anchor) = frame timezone workers (pair first other anchor) ∧
      frame timezone workers (pair first other (anchor.shown l)) = frame timezone workers (pair first other anchor) := by
  cases first <;> exact ⟨rfl, rfl⟩

theorem cost_pair : ((pair first other anchor).map View.cost).sum = other.cost + anchor.cost := by
  cases first with
  | true => simp [pair]
  | false =>
    simp [pair]
    omega

section Pair

variable (hother : other.anchor = false) (hanchor : anchor.anchor = true)

include hother hanchor

theorem truncate_pair_other : truncate timezone workers maxChars (fun view => !view.anchor) (pair first other anchor) =
    if Exceeds timezone workers maxChars (pair first other anchor) then
      pair first (other.truncate ((render timezone workers (pair first other anchor)).length - maxChars)) anchor
    else pair first other anchor := by
  rw [truncate]
  cases first with
  | true => simp [pair, List.findIdx_cons, hother]
  | false => simp [pair, List.findIdx_cons, hother, hanchor]

theorem truncate_pair_anchor : truncate timezone workers maxChars (·.anchor) (pair first other anchor) =
    if Exceeds timezone workers maxChars (pair first other anchor) then
      pair first other (anchor.truncate ((render timezone workers (pair first other anchor)).length - maxChars))
    else pair first other anchor := by
  rw [truncate]
  cases first with
  | true => simp [pair, List.findIdx_cons, hother, hanchor]
  | false => simp [pair, List.findIdx_cons, hanchor]

theorem dropLast_pair : dropLast timezone workers maxChars (pair first other anchor) =
    if Exceeds timezone workers maxChars (pair first other anchor) then
      truncate timezone workers maxChars (·.anchor) [anchor]
    else pair first other anchor := by
  rw [dropLast]
  cases first with
  | true => simp [pair, hother]
  | false => simp [pair, hother, hanchor]

end Pair

theorem truncate_single (hanchor : anchor.anchor = true) : truncate timezone workers maxChars (·.anchor) [anchor] =
    if Exceeds timezone workers maxChars [anchor] then
      [anchor.truncate ((render timezone workers [anchor]).length - maxChars)]
    else [anchor] := by
  rw [truncate]
  simp [List.findIdx_cons, hanchor]

/-- The room for texts, and for what says that they were cut. -/
def room (views : List View) : ℤ := maxChars - frame timezone workers views

theorem exceeds_pair : Exceeds timezone workers maxChars (pair first other anchor) ↔
    room timezone workers maxChars (pair first other anchor) < other.cost + anchor.cost := by
  rw [exceeds_iff, cost_pair, room]
  push_cast
  omega

theorem cost_shown {view : View} {k : ℕ} (h : k ≤ view.visibleText.length) : (view.shown k).cost = k + marker.length := by
  rw [View.cost, View.shown]
  simp [h]

theorem cost_plain {view : View} (h : view.truncated = false) : view.cost = view.visibleText.length := by
  rw [View.cost, h]
  rfl

/-- What the views are in the end: the row of context is cut, or nothing is left of it and the anchor is, or the anchor
is left alone. -/
inductive Ends (first : Bool) (other anchor : View) (space : ℤ) : List View → Prop
  | context (hne : other.visibleText ≠ []) (hfits : anchor.visibleText.length + marker.length ≤ space) :
    Ends first other anchor space
      (pair first (other.shown (space - anchor.visibleText.length - marker.length).toNat) anchor)
  | both (hne : other.visibleText ≠ []) (htight : space < anchor.visibleText.length + marker.length)
    (hanchor : anchor.visibleText ≠ []) (hfits : marker.length + marker.length ≤ space) :
    Ends first other anchor space
      (pair first (other.shown 0) (anchor.shown (space - marker.length - marker.length).toNat))
  | trigger (hnil : other.visibleText = []) (hanchor : anchor.visibleText ≠ []) (hfits : marker.length ≤ space) :
    Ends first other anchor space (pair first other (anchor.shown (space - marker.length).toNat))
  | alone (hne : other.visibleText ≠ [] →
      space < anchor.visibleText.length + marker.length ∧ space < marker.length + marker.length)
    (hnil : other.visibleText = [] → space < marker.length) (hanchor : anchor.visibleText ≠ []) :
    Ends first other anchor space [anchor.shown 0]
  | empty (hne : other.visibleText ≠ [] → space < marker.length) (hnil : other.visibleText = [] → space < 0)
    (hanchor : anchor.visibleText = []) : Ends first other anchor space [anchor]

/-- What is too much of two views. -/
theorem excess_pair : ((render timezone workers (pair first other anchor)).length : ℤ) - maxChars =
    other.cost + anchor.cost - room timezone workers maxChars (pair first other anchor) := by
  rw [length_render, cost_pair, room]
  push_cast
  omega

theorem room_shown (k l : ℕ) :
    room timezone workers maxChars (pair first (other.shown k) anchor) =
        room timezone workers maxChars (pair first other anchor) ∧
      room timezone workers maxChars (pair first other (anchor.shown l)) =
        room timezone workers maxChars (pair first other anchor) := by
  obtain ⟨hother, hanchor⟩ := @frame_pair timezone workers other anchor first k l
  rw [room, room, room, hother, hanchor]
  exact ⟨rfl, rfl⟩

/-- Nothing is left to cut. -/
theorem truncate_empty {view : View} (h : view.visibleText = []) (excess : ℤ) : view.truncate excess = view := by
  rw [View.truncate, if_pos (.inr (by rw [h]; rfl))]

theorem truncate_single_empty (hanchor : anchor.anchor = true) (h : anchor.visibleText = []) :
    truncate timezone workers maxChars (·.anchor) [anchor] = [anchor] := by
  rw [truncate_single timezone workers maxChars hanchor, truncate_empty h, ite_self]

/-- The anchor's text is cut, or the anchor is left alone. -/
theorem cut_anchor (hother : other.anchor = false) (hanchor : anchor.anchor = true) (htrigger : anchor.truncated = false)
    (hlong : Exceeds timezone workers maxChars (pair first other anchor)) :
    dropLast timezone workers maxChars (truncate timezone workers maxChars (·.anchor) (pair first other anchor)) =
      if anchor.visibleText = [] then [anchor]
      else if (other.cost : ℤ) + marker.length ≤ room timezone workers maxChars (pair first other anchor) then
        pair first other
          (anchor.shown (room timezone workers maxChars (pair first other anchor) - other.cost - marker.length).toNat)
      else [anchor.shown 0] := by
  have hspace := (exceeds_pair timezone workers maxChars first).mp hlong
  have hcost := cost_plain htrigger
  rw [truncate_pair_anchor timezone workers maxChars first hother hanchor, if_pos hlong, excess_pair]
  by_cases hnil : anchor.visibleText = []
  · rw [truncate_empty hnil, if_pos hnil, dropLast_pair timezone workers maxChars first hother hanchor, if_pos hlong,
      truncate_single_empty timezone workers maxChars hanchor hnil]
  · have hkeep : (anchor.visibleText.length : ℤ) -
        (other.cost + anchor.cost - room timezone workers maxChars (pair first other anchor)) - marker.length =
          room timezone workers maxChars (pair first other anchor) - other.cost - marker.length := by omega
    rw [truncate_view htrigger (by omega), if_neg hnil, if_neg hnil, hkeep]
    by_cases hfits : (other.cost : ℤ) + marker.length ≤ room timezone workers maxChars (pair first other anchor)
    · have hroom : 0 ≤ room timezone workers maxChars (pair first other anchor) - other.cost - marker.length := by omega
      obtain ⟨k, hk⟩ := Int.eq_ofNat_of_zero_le hroom
      have hle : k ≤ anchor.visibleText.length := by omega
      have hends : ¬Exceeds timezone workers maxChars (pair first other (anchor.shown k)) := by
        rw [exceeds_pair, (room_shown timezone workers maxChars first 0 k).2, cost_shown hle]
        push_cast
        omega
      have hshown : (anchor.shown k).anchor = true := hanchor
      rw [if_pos hfits, hk, Int.toNat_natCast, dropLast_pair timezone workers maxChars first hother hshown, if_neg hends]
    · have hzero : (room timezone workers maxChars (pair first other anchor) - other.cost - marker.length).toNat = 0 := by
        omega
      have hstill : Exceeds timezone workers maxChars (pair first other (anchor.shown 0)) := by
        rw [exceeds_pair, (room_shown timezone workers maxChars first 0 0).2, cost_shown (Nat.zero_le _)]
        push_cast
        omega
      have hshown : (anchor.shown 0).anchor = true := hanchor
      have hnone : (anchor.shown 0).visibleText = [] := rfl
      rw [if_neg hfits, hzero, dropLast_pair timezone workers maxChars first hother hshown, if_pos hstill,
        truncate_single_empty timezone workers maxChars hshown hnone]

/-- **What is cut of two views.** -/
theorem finalViews_pair (hother : other.anchor = false) (hanchor : anchor.anchor = true)
    (hcontext : other.truncated = false) (htrigger : anchor.truncated = false)
    (hlong : Exceeds timezone workers maxChars (pair first other anchor)) :
    Ends first other anchor (room timezone workers maxChars (pair first other anchor))
      (finalViews timezone workers maxChars (pair first other anchor)) := by
  have hspace := (exceeds_pair timezone workers maxChars first).mp hlong
  have hcost := cost_plain htrigger
  have hcostOther := cost_plain hcontext
  rw [finalViews, truncate_pair_other timezone workers maxChars first hother hanchor, if_pos hlong, excess_pair]
  by_cases hnil : other.visibleText = []
  · rw [truncate_empty hnil, cut_anchor timezone workers maxChars first hother hanchor htrigger hlong]
    have hzero : other.cost = 0 := by rw [hcostOther, hnil]; rfl
    rw [hzero] at hspace ⊢
    by_cases hempty : anchor.visibleText = []
    · rw [if_pos hempty]
      have hnone : anchor.cost = 0 := by rw [hcost, hempty]; rfl
      exact .empty (fun h => absurd hnil h) (fun _ => by omega) hempty
    · rw [if_neg hempty]
      by_cases hfits : ((0 : ℕ) : ℤ) + marker.length ≤ room timezone workers maxChars (pair first other anchor)
      · rw [if_pos hfits, Nat.cast_zero, sub_zero]
        exact .trigger hnil hempty (by omega)
      · rw [if_neg hfits]
        exact .alone (fun h => absurd hnil h) (fun _ => by omega) hempty
  · have hkeep : (other.visibleText.length : ℤ) -
        (other.cost + anchor.cost - room timezone workers maxChars (pair first other anchor)) - marker.length =
          room timezone workers maxChars (pair first other anchor) - anchor.visibleText.length - marker.length := by
      omega
    rw [truncate_view hcontext (by omega), if_neg hnil, hkeep]
    by_cases hfits : (anchor.visibleText.length : ℤ) + marker.length ≤
        room timezone workers maxChars (pair first other anchor)
    · have hroom : 0 ≤ room timezone workers maxChars (pair first other anchor) - anchor.visibleText.length -
          marker.length := by omega
      obtain ⟨k, hk⟩ := Int.eq_ofNat_of_zero_le hroom
      have hends : ¬Exceeds timezone workers maxChars (pair first (other.shown k) anchor) := by
        rw [exceeds_pair, (room_shown timezone workers maxChars first k 0).1,
          cost_shown (by omega : k ≤ other.visibleText.length)]
        push_cast
        omega
      have hcontextEnds := @Ends.context first other anchor _ hnil hfits
      rw [hk, Int.toNat_natCast] at hcontextEnds ⊢
      have hshown : (other.shown k).anchor = false := hother
      rw [truncate_pair_anchor timezone workers maxChars first hshown hanchor, if_neg hends,
        dropLast_pair timezone workers maxChars first hshown hanchor, if_neg hends]
      exact hcontextEnds
    · have hzero : (room timezone workers maxChars (pair first other anchor) - anchor.visibleText.length -
          marker.length).toNat = 0 := by omega
      have hmarker : (other.shown 0).cost = marker.length := by rw [cost_shown (Nat.zero_le _), Nat.zero_add]
      have hstill : Exceeds timezone workers maxChars (pair first (other.shown 0) anchor) := by
        rw [exceeds_pair, (room_shown timezone workers maxChars first 0 0).1, hmarker]
        omega
      have hshown : (other.shown 0).anchor = false := hother
      rw [hzero, cut_anchor timezone workers maxChars first hshown hanchor htrigger hstill,
        (room_shown timezone workers maxChars first 0 0).1, hmarker]
      by_cases hempty : anchor.visibleText = []
      · rw [if_pos hempty]
        have hnone : anchor.visibleText.length = 0 := by rw [hempty]; rfl
        exact .empty (fun _ => by omega) (fun h => absurd h hnil) hempty
      · rw [if_neg hempty]
        by_cases hboth : (marker.length : ℤ) + marker.length ≤ room timezone workers maxChars (pair first other anchor)
        · rw [if_pos hboth]
          exact .both hnil (by omega) hempty hboth
        · rw [if_neg hboth]
          exact .alone (fun _ => ⟨by omega, by omega⟩) (fun h => absurd h hnil) hempty

/-- **What is cut of the anchor alone.** -/
theorem finalViews_single (hanchor : anchor.anchor = true) (htrigger : anchor.truncated = false)
    (hlong : Exceeds timezone workers maxChars [anchor]) : finalViews timezone workers maxChars [anchor] =
      if anchor.visibleText = [] then [anchor]
      else [anchor.shown (room timezone workers maxChars [anchor] - marker.length).toNat] := by
  have hcost := cost_plain htrigger
  have hcontext : truncate timezone workers maxChars (fun view => !view.anchor) [anchor] = [anchor] := by
    rw [truncate, if_pos hlong]
    simp [List.findIdx_cons, hanchor]
  have hdrop : ∀ view : View, view.anchor = true → dropLast timezone workers maxChars [view] = [view] := by
    intro view hview
    rw [dropLast]
    simp [hview]
  have hexcess : ((render timezone workers [anchor]).length : ℤ) - maxChars =
      anchor.cost - room timezone workers maxChars [anchor] := by
    rw [length_render, room, List.map_singleton, List.sum_singleton]
    push_cast
    omega
  have hpos : 0 < (anchor.cost : ℤ) - room timezone workers maxChars [anchor] := by
    rw [← hexcess]
    have hexceeds : maxChars < (render timezone workers [anchor]).length := hlong
    omega
  rw [finalViews, hcontext, truncate_single timezone workers maxChars hanchor, if_pos hlong, hexcess,
    truncate_view htrigger hpos]
  by_cases hnil : anchor.visibleText = []
  · rw [if_pos hnil, if_pos hnil, hdrop anchor hanchor]
  · have hkeep : (anchor.visibleText.length : ℤ) - (anchor.cost - room timezone workers maxChars [anchor]) -
        marker.length = room timezone workers maxChars [anchor] - marker.length := by omega
    rw [if_neg hnil, if_neg hnil, hkeep]
    exact hdrop (anchor.shown _) hanchor

/-- Where a text is cut: the message, and the units of its escaped text that are shown. -/
def cutAt (views : List View) : Option (MessageInRow × ℕ) :=
  let space := room timezone workers maxChars views
  if Exceeds timezone workers maxChars views then
    match views.find? fun view => !view.anchor, views.find? (·.anchor) with
    | some other, some anchor =>
      if other.visibleText ≠ [] ∧ anchor.visibleText.length + marker.length ≤ space then
        some (other.msg, (space - anchor.visibleText.length - marker.length).toNat)
      else if other.visibleText = [] then
        if marker.length ≤ space then some (anchor.msg, (space - marker.length).toNat) else none
      else if marker.length + marker.length ≤ space then
        some (anchor.msg, (space - marker.length - marker.length).toNat)
      else none
    | none, some anchor => if marker.length ≤ space then some (anchor.msg, (space - marker.length).toNat) else none
    | _, none => none
  else none

/-- The text is cut between two units. -/
def CutBetween (message : MessageInRow) (k : ℕ) : Prop :=
  ∃ p, p <+: messageText message ∧ (escapeXml (messageText message)).take k = escapeXml p

theorem cutBetween_empty {message : MessageInRow} (h : escapeXml (messageText message) = []) (k : ℕ) :
    CutBetween message k := by
  have hnil : escapeXml [] = [] := by rw [escapeXml_eq, List.flatMap_nil]
  exact ⟨[], List.nil_prefix, by rw [h, hnil, List.take_nil]⟩

/-- The view of a message, as it is or cut. -/
def View.Of (view : View) (anchor : Option MessageInRow) (m : MessageInRow) : Prop :=
  view = viewOf anchor m ∨ ∃ k, view = (viewOf anchor m).shown k

theorem View.Of.msg {view : View} {anchor : Option MessageInRow} {m : MessageInRow} (h : view.Of anchor m) :
    view.msg = m := by
  rcases h with rfl | ⟨k, rfl⟩ <;> rfl

theorem View.Of.same {view : View} {anchor : Option MessageInRow} {m : MessageInRow} (h : view.Of anchor m) :
    view.anchor = (viewOf anchor m).anchor := by
  rcases h with rfl | ⟨k, rfl⟩ <;> rfl

/-- What becomes of the views. -/
structure Finished (anchor : Option MessageInRow) (kept views : List View) : Prop where
  texts : ∀ view ∈ views, ∃ m, view.Of anchor m
  order : (views.map (·.msg)).Sublist (kept.map (·.msg))
  keeps : ∀ a, anchor = some a → a ∈ kept.map (·.msg) → a ∈ views.map (·.msg)
  trigger : ∀ view ∈ views, view.anchor = true → view.truncated = true →
    ∀ other ∈ views, other.anchor = false → other.visibleText = []
  cuts : ∀ view ∈ views, view.truncated = true → view.visibleText = [] ∨
    ∃ k, cutAt timezone workers maxChars kept = some (view.msg, k) ∧ view = (viewOf anchor view.msg).shown k
  broken : ∀ m k, cutAt timezone workers maxChars kept = some (m, k) → ¬CutBetween m k →
    (viewOf anchor m).shown k ∈ views ∧ ¬Exceeds timezone workers maxChars views

theorem exceeds_single (view : View) : Exceeds timezone workers maxChars [view] ↔
    room timezone workers maxChars [view] < view.cost := by
  rw [exceeds_iff, List.map_singleton, List.sum_singleton, room]
  omega

/-- The anchor alone. -/
theorem finished_alone {kept : List View} {a : MessageInRow} {view : View} (hview : view.Of (some a) a)
    (hkept : a ∈ kept.map (·.msg))
    (hcuts : view.truncated = true → view.visibleText = [] ∨
      ∃ k, cutAt timezone workers maxChars kept = some (a, k) ∧ view = (viewOf (some a) a).shown k)
    (hbroken : ∀ m k, cutAt timezone workers maxChars kept = some (m, k) → ¬CutBetween m k →
      (viewOf (some a) m).shown k = view ∧ ¬Exceeds timezone workers maxChars [view]) :
    Finished timezone workers maxChars (some a) kept [view] := by
  refine ⟨?_, ?_, ?_, ?_, ?_, ?_⟩
  · intro v hv
    rw [List.mem_singleton.mp hv]
    exact ⟨a, hview⟩
  · rw [List.map_singleton, hview.msg]
    exact List.singleton_sublist.mpr hkept
  · intro b hb _
    rw [List.map_singleton, hview.msg]
    exact List.mem_singleton.mpr (Option.some.inj hb).symm
  · intro v hv hanchor _ w hw hother
    rw [List.mem_singleton.mp hw, ← List.mem_singleton.mp hv, hanchor] at hother
    cases hother
  · intro v hv
    rw [List.mem_singleton.mp hv, hview.msg]
    exact hcuts
  · intro m k hm hbetween
    obtain ⟨heq, hfits⟩ := hbroken m k hm hbetween
    exact ⟨List.mem_singleton.mpr heq, hfits⟩

theorem mem_pair {view : View} : view ∈ pair first other anchor ↔ view = other ∨ view = anchor := by
  cases first with
  | true => simp [pair]
  | false =>
    simp [pair]
    exact or_comm

/-- The anchor and a row of context. -/
theorem finished_two {o a : MessageInRow} {x y : View} (hx : x.Of (some a) o) (hy : y.Of (some a) a)
    (htrigger : y.truncated = true → x.visibleText = [])
    (hcutsX : x.truncated = true → x.visibleText = [] ∨
      ∃ k, cutAt timezone workers maxChars (pair first (viewOf (some a) o) (viewOf (some a) a)) = some (o, k) ∧
        x = (viewOf (some a) o).shown k)
    (hcutsY : y.truncated = true → y.visibleText = [] ∨
      ∃ k, cutAt timezone workers maxChars (pair first (viewOf (some a) o) (viewOf (some a) a)) = some (a, k) ∧
        y = (viewOf (some a) a).shown k)
    (hbroken : ∀ m k, cutAt timezone workers maxChars (pair first (viewOf (some a) o) (viewOf (some a) a)) = some (m, k) →
      ¬CutBetween m k → ((viewOf (some a) m).shown k = x ∨ (viewOf (some a) m).shown k = y) ∧
        ¬Exceeds timezone workers maxChars (pair first x y)) :
    Finished timezone workers maxChars (some a) (pair first (viewOf (some a) o) (viewOf (some a) a)) (pair first x y) := by
  have hmsgs : (pair first x y).map (·.msg) = (pair first (viewOf (some a) o) (viewOf (some a) a)).map (·.msg) := by
    cases first with
    | true => simp [pair, hx.msg, hy.msg, viewOf]
    | false => simp [pair, hx.msg, hy.msg, viewOf]
  have hanchor : (viewOf (some a) a).anchor = true := decide_eq_true rfl
  refine ⟨?_, by rw [hmsgs], fun b _ hb => by rwa [hmsgs], ?_, ?_, ?_⟩
  · intro v hv
    rcases (mem_pair first).mp hv with rfl | rfl
    · exact ⟨o, hx⟩
    · exact ⟨a, hy⟩
  · intro v hv hva htruncated w hw hwo
    rcases (mem_pair first).mp hw with rfl | rfl
    · rcases (mem_pair first).mp hv with rfl | rfl
      · rw [hva] at hwo
        cases hwo
      · exact htrigger htruncated
    · rw [hy.same, hanchor] at hwo
      cases hwo
  · intro v hv
    rcases (mem_pair first).mp hv with rfl | rfl
    · rw [hx.msg]
      exact hcutsX
    · rw [hy.msg]
      exact hcutsY
  · intro m k hm hbetween
    obtain ⟨heq, hfits⟩ := hbroken m k hm hbetween
    exact ⟨(mem_pair first).mpr heq, hfits⟩

theorem finished_single {a : MessageInRow} (hlong : Exceeds timezone workers maxChars [viewOf (some a) a]) :
    Finished timezone workers maxChars (some a) [viewOf (some a) a]
      (finalViews timezone workers maxChars [viewOf (some a) a]) := by
  have hanchor : (viewOf (some a) a).anchor = true := decide_eq_true rfl
  have hspace := (exceeds_single timezone workers maxChars _).mp hlong
  have hcost : (viewOf (some a) a).cost = (viewOf (some a) a).visibleText.length := cost_plain rfl
  have hcut : cutAt timezone workers maxChars [viewOf (some a) a] =
      if marker.length ≤ room timezone workers maxChars [viewOf (some a) a] then
        some (a, (room timezone workers maxChars [viewOf (some a) a] - marker.length).toNat) else none := by
    rw [cutAt, if_pos hlong]
    simp [viewOf]
  have hkept : a ∈ [viewOf (some a) a].map (·.msg) := List.mem_singleton.mpr rfl
  rw [finalViews_single timezone workers maxChars hanchor rfl hlong]
  by_cases hnil : (viewOf (some a) a).visibleText = []
  · rw [if_pos hnil]
    refine finished_alone timezone workers maxChars (.inl rfl) hkept nofun fun m k hm hbetween => ?_
    rw [hcut] at hm
    split at hm
    · obtain ⟨rfl, rfl⟩ := Prod.mk.inj (Option.some.inj hm)
      exact absurd (cutBetween_empty hnil _) hbetween
    · cases hm
  · rw [if_neg hnil]
    refine finished_alone timezone workers maxChars (.inr ⟨_, rfl⟩) hkept (fun _ => ?_) fun m k hm hbetween => ?_
    · by_cases hfits : (marker.length : ℤ) ≤ room timezone workers maxChars [viewOf (some a) a]
      · exact .inr ⟨_, by rw [hcut, if_pos hfits], rfl⟩
      · have hzero : (room timezone workers maxChars [viewOf (some a) a] - marker.length).toNat = 0 := by omega
        rw [hzero]
        exact .inl rfl
    · rw [hcut] at hm
      split at hm
      · rename_i hfits
        obtain ⟨rfl, rfl⟩ := Prod.mk.inj (Option.some.inj hm)
        refine ⟨rfl, ?_⟩
        have hroom : room timezone workers maxChars
            [(viewOf (some a) a).shown (room timezone workers maxChars [viewOf (some a) a] - marker.length).toNat] =
              room timezone workers maxChars [viewOf (some a) a] := rfl
        rw [exceeds_single, hroom, cost_shown (by omega)]
        omega
      · cases hm

/-- Where the text of two views is cut. -/
theorem cutAt_pair {space : ℤ} (hother : other.anchor = false) (hanchor : anchor.anchor = true)
    (hlong : Exceeds timezone workers maxChars (pair first other anchor))
    (hspace : room timezone workers maxChars (pair first other anchor) = space) :
    cutAt timezone workers maxChars (pair first other anchor) =
      if other.visibleText ≠ [] ∧ anchor.visibleText.length + marker.length ≤ space then
        some (other.msg, (space - anchor.visibleText.length - marker.length).toNat)
      else if other.visibleText = [] then
        if marker.length ≤ space then some (anchor.msg, (space - marker.length).toNat) else none
      else if marker.length + marker.length ≤ space then
        some (anchor.msg, (space - marker.length - marker.length).toNat)
      else none := by
  have hfindOther : (pair first other anchor).find? (fun view => !view.anchor) = some other := by
    cases first <;> simp [pair, hother, hanchor]
  have hfindAnchor : (pair first other anchor).find? (·.anchor) = some anchor := by
    cases first <;> simp [pair, hother, hanchor]
  rw [cutAt, if_pos hlong, hfindOther, hfindAnchor, hspace]

theorem finished_pair {o a : MessageInRow} (hoa : o.id ≠ a.id)
    (hlong : Exceeds timezone workers maxChars (pair first (viewOf (some a) o) (viewOf (some a) a))) :
    Finished timezone workers maxChars (some a) (pair first (viewOf (some a) o) (viewOf (some a) a))
      (finalViews timezone workers maxChars (pair first (viewOf (some a) o) (viewOf (some a) a))) := by
  have hanchor : (viewOf (some a) a).anchor = true := decide_eq_true rfl
  have hother : (viewOf (some a) o).anchor = false := decide_eq_false fun h => hoa (Option.some.inj h)
  have hexceeds := (exceeds_pair timezone workers maxChars first).mp hlong
  have hcost : (viewOf (some a) a).cost = (viewOf (some a) a).visibleText.length := cost_plain rfl
  have hcostOther : (viewOf (some a) o).cost = (viewOf (some a) o).visibleText.length := cost_plain rfl
  have hkept : a ∈ (pair first (viewOf (some a) o) (viewOf (some a) a)).map (·.msg) := by
    cases first <;> simp [pair, viewOf]
  have hends := finalViews_pair timezone workers maxChars first hother hanchor rfl rfl hlong
  generalize hspace : room timezone workers maxChars (pair first (viewOf (some a) o) (viewOf (some a) a)) = space at *
  generalize finalViews timezone workers maxChars (pair first (viewOf (some a) o) (viewOf (some a) a)) = views at *
  have hcut := cutAt_pair timezone workers maxChars first hother hanchor hlong hspace
  cases hends with
  | context hne hfits =>
    rw [if_pos ⟨hne, hfits⟩] at hcut
    refine finished_two timezone workers maxChars first (.inr ⟨_, rfl⟩) (.inl rfl) nofun (fun _ => .inr ⟨_, hcut, rfl⟩)
      nofun fun m k hm _ => ?_
    obtain ⟨rfl, rfl⟩ := Prod.mk.inj (Option.some.inj (hcut.symm.trans hm))
    refine ⟨.inl rfl, ?_⟩
    rw [exceeds_pair, (room_shown timezone workers maxChars first _ 0).1, hspace, cost_shown (by omega)]
    omega
  | both hne htight hnonempty hfits =>
    rw [if_neg (fun h => by omega), if_neg hne, if_pos hfits] at hcut
    refine finished_two timezone workers maxChars first (.inr ⟨_, rfl⟩) (.inr ⟨_, rfl⟩) (fun _ => rfl) (fun _ => .inl rfl)
      (fun _ => .inr ⟨_, hcut, rfl⟩) fun m k hm _ => ?_
    obtain ⟨rfl, rfl⟩ := Prod.mk.inj (Option.some.inj (hcut.symm.trans hm))
    refine ⟨.inr rfl, ?_⟩
    rw [exceeds_pair, (room_shown timezone workers maxChars first 0 _).2,
      (room_shown timezone workers maxChars first 0 0).1, hspace, cost_shown (Nat.zero_le _), cost_shown (by omega)]
    omega
  | trigger hnil hnonempty hfits =>
    have hzero : (viewOf (some a) o).cost = 0 := by rw [hcostOther, hnil]; rfl
    rw [if_neg (fun h => h.1 hnil), if_pos hnil, if_pos hfits] at hcut
    refine finished_two timezone workers maxChars first (.inl rfl) (.inr ⟨_, rfl⟩) (fun _ => hnil) nofun
      (fun _ => .inr ⟨_, hcut, rfl⟩) fun m k hm _ => ?_
    obtain ⟨rfl, rfl⟩ := Prod.mk.inj (Option.some.inj (hcut.symm.trans hm))
    refine ⟨.inr rfl, ?_⟩
    rw [exceeds_pair, (room_shown timezone workers maxChars first 0 _).2, hspace, cost_shown (by omega)]
    omega
  | alone hne hnil hnonempty =>
    have hnone : cutAt timezone workers maxChars (pair first (viewOf (some a) o) (viewOf (some a) a)) = none := by
      rw [hcut]
      by_cases hempty : (viewOf (some a) o).visibleText = []
      · have htight := hnil hempty
        rw [if_neg (fun h => h.1 hempty), if_pos hempty, if_neg (by omega)]
      · obtain ⟨htext, htight⟩ := hne hempty
        rw [if_neg (fun h => by omega), if_neg hempty, if_neg (by omega)]
    refine finished_alone timezone workers maxChars (.inr ⟨0, rfl⟩) hkept (fun _ => .inl rfl) fun m k hm _ => ?_
    rw [hnone] at hm
    cases hm
  | empty hne hnil hempty =>
    have hnone : cutAt timezone workers maxChars (pair first (viewOf (some a) o) (viewOf (some a) a)) = none := by
      rw [hcut]
      by_cases hcontext : (viewOf (some a) o).visibleText = []
      · have htight := hnil hcontext
        rw [if_neg (fun h => h.1 hcontext), if_pos hcontext, if_neg (by omega)]
      · have htight := hne hcontext
        rw [if_neg (fun h => by omega), if_neg hcontext, if_neg (by omega)]
    refine finished_alone timezone workers maxChars (.inl rfl) hkept nofun fun m k hm _ => ?_
    rw [hnone] at hm
    cases hm

/-- What fits is not cut. -/
theorem finalViews_fits {views : List View} (h : ¬Exceeds timezone workers maxChars views) :
    finalViews timezone workers maxChars views = views := by
  have htruncate : ∀ kind : View → Bool, truncate timezone workers maxChars kind views = views := fun kind => if_neg h
  rw [finalViews, htruncate, htruncate, dropLast, if_neg h]

theorem finalViews_nil : finalViews timezone workers maxChars [] = [] := by
  have htruncate : ∀ kind : View → Bool, truncate timezone workers maxChars kind [] = [] := by
    intro kind
    rw [truncate]
    split <;> rfl
  rw [finalViews, htruncate, htruncate, dropLast]
  split <;> rfl

variable {messages : List MessageInRow} {maxMessages : ℕ} (hids : (messages.map (·.id)).Nodup) (hmax : 1 ≤ maxMessages)

/-- The chat rows. -/
def chatOf (messages : List MessageInRow) : List MessageInRow := messages.filter (·.kind.isChat)

include hids in
theorem chat_ids : ((chatOf messages).map (·.id)).Nodup := hids.sublist (List.filter_sublist.map _)

include hids hmax

theorem keptViews_spec : ∃ msgs : List MessageInRow,
    keptViews timezone workers maxChars messages maxMessages = msgs.map (viewOf (anchorOf (chatOf messages))) ∧
      msgs.Sublist (chatOf messages) ∧ msgs.length ≤ maxMessages ∧
        (∀ a, anchorOf (chatOf messages) = some a → a ∈ msgs) ∧
          (Exceeds timezone workers maxChars (keptViews timezone workers maxChars messages maxMessages) →
            ((keptViews timezone workers maxChars messages maxMessages).filter fun view => !view.anchor).length ≤ 1) := by
  obtain ⟨hsub, hlength, hanchor⟩ := selectMessages_spec (chat_ids hids) hmax
  obtain ⟨hdropped, hkeeps, hone⟩ := dropOldest_spec timezone workers maxChars _ (Nat.le_refl
    ((selectMessages (chatOf messages) maxMessages).map (viewOf (anchorOf (chatOf messages)))).length)
  obtain ⟨msgs, hmsgs, heq⟩ := List.sublist_map_iff.mp hdropped
  have hkept : keptViews timezone workers maxChars messages maxMessages =
      msgs.map (viewOf (anchorOf (chatOf messages))) := heq
  refine ⟨msgs, hkept, hmsgs.trans hsub, hmsgs.length_le.trans hlength, fun a ha => ?_, hone⟩
  have hview : viewOf (anchorOf (chatOf messages)) a ∈ msgs.map (viewOf (anchorOf (chatOf messages))) := by
    rw [← heq]
    exact hkeeps _ (List.mem_map_of_mem (hanchor a ha)) (decide_eq_true (by rw [ha]; rfl))
  obtain ⟨m, hm, hsame⟩ := List.mem_map.mp hview
  have hmsg : m = a := congrArg View.msg hsame
  rwa [← hmsg]

/-- **What becomes of the views.** -/
theorem finished_kept : Finished timezone workers maxChars (anchorOf (chatOf messages))
    (keptViews timezone workers maxChars messages maxMessages)
    (finalViews timezone workers maxChars (keptViews timezone workers maxChars messages maxMessages)) := by
  obtain ⟨msgs, hkept, hsub, -, hanchor, hone⟩ := keptViews_spec timezone workers maxChars hids hmax
  rw [hkept] at hone ⊢
  by_cases hlong : Exceeds timezone workers maxChars (msgs.map (viewOf (anchorOf (chatOf messages))))
  · cases ha : anchorOf (chatOf messages) with
    | none =>
      have hnil : msgs = [] := by
        have hchat : chatOf messages = [] := List.getLast?_eq_none_iff.mp (Option.or_eq_none_iff.mp ha).2
        rw [hchat] at hsub
        exact List.sublist_nil.mp hsub
      rw [hnil, List.map_nil, finalViews_nil]
      refine ⟨nofun, List.Sublist.refl _, nofun, nofun, nofun, fun m k hm => ?_⟩
      rw [cutAt] at hm
      split at hm <;> cases hm
    | some a =>
      obtain ⟨before, after, rfl⟩ := List.append_of_mem (hanchor a ha)
      have hcontext : ∀ m ∈ before ++ after, m.id ≠ a.id := by
        intro m hm heq
        have hnodup := (chat_ids hids).sublist (hsub.map (·.id))
        rw [List.map_append, List.map_cons, List.nodup_append] at hnodup
        rcases List.mem_append.mp hm with hm | hm
        · exact hnodup.2.2 _ (List.mem_map_of_mem hm) _ List.mem_cons_self heq
        · exact (List.nodup_cons.mp hnodup.2.1).1 (heq ▸ List.mem_map_of_mem hm)
      have hviews : ∀ m ∈ before ++ after, (viewOf (some a) m).anchor = false := fun m hm =>
        decide_eq_false fun h => hcontext m hm (Option.some.inj h)
      have hcount : (before ++ after).length ≤ 1 := by
        have hfilter : ∀ l : List MessageInRow, (∀ m ∈ l, (viewOf (some a) m).anchor = false) →
            (l.map (viewOf (some a))).filter (fun view => !view.anchor) = l.map (viewOf (some a)) := by
          intro l hl
          rw [List.filter_eq_self]
          intro view hview
          obtain ⟨m, hm, rfl⟩ := List.mem_map.mp hview
          rw [hl m hm]
          rfl
        have htrigger : (viewOf (some a) a).anchor = true := decide_eq_true rfl
        have hshort := hone hlong
        rw [ha, List.map_append, List.map_cons, List.filter_append, List.filter_cons, htrigger,
          hfilter before fun m hm => hviews m (List.mem_append_left _ hm),
          hfilter after fun m hm => hviews m (List.mem_append_right _ hm)] at hshort
        simpa using hshort
      have hshape : (before ++ a :: after).map (viewOf (some a)) = [viewOf (some a) a] ∨
          ∃ first, ∃ m ∈ before ++ after,
            (before ++ a :: after).map (viewOf (some a)) = pair first (viewOf (some a) m) (viewOf (some a) a) := by
        rcases before with _ | ⟨m, before⟩
        · rcases after with _ | ⟨m, after⟩
          · exact .inl rfl
          · have hnil : after = [] := List.length_eq_zero_iff.mp (by simpa using hcount)
            exact .inr ⟨false, m, List.mem_cons_self, by rw [hnil]; rfl⟩
        · have hnil : before ++ after = [] := List.length_eq_zero_iff.mp (by simpa using hcount)
          obtain ⟨rfl, rfl⟩ := List.append_eq_nil_iff.mp hnil
          exact .inr ⟨true, m, List.mem_cons_self, rfl⟩
      rw [ha] at hlong
      rcases hshape with hshape | ⟨first, m, hm, hshape⟩
      · rw [hshape] at hlong ⊢
        exact finished_single timezone workers maxChars hlong
      · rw [hshape] at hlong ⊢
        exact finished_pair timezone workers maxChars first (hcontext m hm) hlong
  · rw [finalViews_fits timezone workers maxChars hlong]
    have hplain : ∀ view ∈ msgs.map (viewOf (anchorOf (chatOf messages))), view.truncated = false := by
      intro view hview
      obtain ⟨m, -, rfl⟩ := List.mem_map.mp hview
      rfl
    refine ⟨fun view hview => ?_, List.Sublist.refl _, fun a _ ha => ha, fun view hview _ htruncated => ?_,
      fun view hview htruncated => ?_, fun m k hm => ?_⟩
    · obtain ⟨m, -, rfl⟩ := List.mem_map.mp hview
      exact ⟨m, .inl rfl⟩
    · rw [hplain view hview] at htruncated
      cases htruncated
    · rw [hplain view hview] at htruncated
      cases htruncated
    · rw [cutAt, if_neg hlong] at hm
      cases hm

omit hids hmax in
theorem View.Of.senderShown {view : View} {c : Option MessageInRow} {m : MessageInRow} (h : view.Of c m) :
    view.SenderShown := by
  rcases h with rfl | ⟨k, rfl⟩
  · exact ⟨messageSender m, rfl⟩
  · exact ⟨messageSender m, rfl⟩

omit hids hmax in
theorem View.Of.whole_or_broken {view : View} {c : Option MessageInRow} {m : MessageInRow} (h : view.Of c m) :
    view.Whole ∨ view.Broken := by
  rcases h with rfl | ⟨k, rfl⟩
  · exact .inl ⟨messageText m, rfl⟩
  · rcases take_escapeXml (messageText m) k with ⟨p, -, heq⟩ | ⟨p, part, heq, hpart⟩
    · exact .inl ⟨p, heq⟩
    · exact .inr ⟨rfl, p, part, heq, hpart⟩

/-- The views show the latest messages, and the anchor as long as there is something else to cut. -/
structure Shows (messages : List MessageInRow) (maxMessages : ℕ) (views : List View) : Prop where
  order : (views.map (·.msg)).Sublist (chatOf messages)
  count : views.length ≤ maxMessages
  anchor : ∀ a, anchorOf (chatOf messages) = some a → a ∈ views.map (·.msg)
  texts : ∀ view ∈ views, view.sender = escapeXml (messageSender view.msg) ∧
    view.visibleText <+: escapeXml (messageText view.msg) ∧
      (view.truncated = false → view.visibleText = escapeXml (messageText view.msg))
  trigger : ∀ a, anchorOf (chatOf messages) = some a → ∀ view ∈ views, view.msg = a → view.truncated = true →
    ∀ other ∈ views, other.msg ≠ a → other.visibleText = []

/-- The one error; or a text within its bound, which is markup, and of such views. -/
def Bounded (messages : List MessageInRow) (maxMessages : ℕ) : Except RoutingAttemptError Text → Prop
  | .error e => e = structuralError
  | .ok t => t.length ≤ maxChars ∧ WellFormed t ∧
      ∃ views, t = render timezone workers views ∧ Shows messages maxMessages views

theorem shows_final : Shows messages maxMessages
    (finalViews timezone workers maxChars (keptViews timezone workers maxChars messages maxMessages)) := by
  obtain ⟨msgs, hkept, hsub, hlength, hanchor, -⟩ := keptViews_spec timezone workers maxChars hids hmax
  have hfinished := finished_kept timezone workers maxChars hids hmax
  have hmsgs : (keptViews timezone workers maxChars messages maxMessages).map (·.msg) = msgs := by
    rw [hkept, List.map_map]
    exact List.map_id msgs
  have horder := hfinished.order
  rw [hmsgs] at horder
  refine ⟨horder.trans hsub, ?_, fun a ha => hfinished.keeps a ha (by rw [hmsgs]; exact hanchor a ha), ?_, ?_⟩
  · have hle := horder.length_le
    rw [List.length_map] at hle
    exact hle.trans hlength
  · intro view hview
    obtain ⟨m, rfl | ⟨k, rfl⟩⟩ := hfinished.texts view hview
    · exact ⟨rfl, List.prefix_refl _, fun _ => rfl⟩
    · exact ⟨rfl, List.take_prefix _ _, nofun⟩
  · intro a ha view hview hmsg htruncated other hother hne
    have hviewAnchor : view.anchor = true := by
      obtain ⟨m, hm⟩ := hfinished.texts view hview
      rw [hm.same, ← hm.msg, hmsg]
      exact decide_eq_true (by rw [ha]; rfl)
    have hotherAnchor : other.anchor = false := by
      obtain ⟨m, hm⟩ := hfinished.texts other hother
      have hmem : other.msg ∈ chatOf messages := (horder.trans hsub).subset (List.mem_map_of_mem hother)
      rw [hm.same, ← hm.msg]
      refine decide_eq_false fun h => hne (eq_of_id (chat_ids hids) hmem (hsub.subset (hanchor a ha)) ?_)
      rw [ha] at h
      exact Option.some.inj h
    exact hfinished.trigger view hview hviewAnchor htruncated other hother hotherAnchor

/-- **The payload keeps to its bounds, is markup and keeps the trigger**, exactly when a text is cut between units. -/
theorem routing_context_iff : Bounded timezone workers maxChars messages maxMessages
      (buildRoutingContext timezone workers maxChars messages maxMessages) ↔
    ∀ m k, cutAt timezone workers maxChars (keptViews timezone workers maxChars messages maxMessages) = some (m, k) →
      CutBetween m k := by
  have hfinished := finished_kept timezone workers maxChars hids hmax
  have hshows := shows_final timezone workers maxChars hids hmax
  have hbuild : buildRoutingContext timezone workers maxChars messages maxMessages =
      if Exceeds timezone workers maxChars
          (finalViews timezone workers maxChars (keptViews timezone workers maxChars messages maxMessages)) then
        .error structuralError
      else .ok (render timezone workers
        (finalViews timezone workers maxChars (keptViews timezone workers maxChars messages maxMessages))) := rfl
  have hsenders : ∀ view ∈ finalViews timezone workers maxChars
      (keptViews timezone workers maxChars messages maxMessages), view.SenderShown := fun view hview =>
    (hfinished.texts view hview).elim fun m hm => hm.senderShown
  rw [hbuild]
  constructor
  · intro hbounded m k hcut
    by_contra hbetween
    obtain ⟨hview, hfits⟩ := hfinished.broken m k hcut hbetween
    rw [if_neg hfits] at hbounded
    have hbroken : ((viewOf (anchorOf (chatOf messages)) m).shown k).Broken := by
      rcases take_escapeXml (messageText m) k with hwhole | ⟨p, part, heq, hpart⟩
      · exact absurd hwhole hbetween
      · exact ⟨rfl, p, part, heq, hpart⟩
    exact not_wellFormed_render timezone workers hsenders
      (fun view hview => (hfinished.texts view hview).elim fun m hm => hm.whole_or_broken)
      ⟨_, hview, hbroken⟩ hbounded.2.1
  · intro hbetween
    by_cases hlong : Exceeds timezone workers maxChars
        (finalViews timezone workers maxChars (keptViews timezone workers maxChars messages maxMessages))
    · rw [if_pos hlong]
      rfl
    · rw [if_neg hlong]
      refine ⟨not_lt.mp hlong, wellFormed_render timezone workers hsenders fun view hview => ?_, _, rfl, hshows⟩
      by_cases htruncated : view.truncated = true
      · rcases hfinished.cuts view hview htruncated with hnil | ⟨k, hcut, heq⟩
        · exact ⟨[], by rw [hnil, escapeXml_eq, List.flatMap_nil]⟩
        · obtain ⟨p, -, hp⟩ := hbetween _ _ hcut
          exact ⟨p, by rw [heq]; exact hp⟩
      · obtain ⟨-, -, htext⟩ := hshows.texts view hview
        exact ⟨_, htext (by simpa using htruncated)⟩

omit hids hmax in
/-- A text that is not read is not markup. -/
theorem not_bounded_of_read {result : Except RoutingAttemptError Text}
    (h : result.toOption.map (fun t => (Markup.read t).isSome) = some false) :
    ¬Bounded timezone workers maxChars messages maxMessages result := by
  intro hbounded
  cases result with
  | error e => cases h
  | ok t =>
    obtain ⟨-, ⟨name, attributes, children, hmarkup⟩, -⟩ := hbounded
    rw [Except.toOption, Option.map_some, hmarkup] at h
    cases h

end Context

/-- A trigger of one row. -/
def triggerRow (content : Text) : MessageInRow := ⟨ofString "m1", .chat, true, content⟩

theorem routing_context_iff_short : Bounded none [] 1000 [triggerRow (ofString "Tom & Jerry")] 4
    (buildRoutingContext none [] 1000 [triggerRow (ofString "Tom & Jerry")] 4) := by
  have hcut : cutAt none [] 1000 (keptViews none [] 1000 [triggerRow (ofString "Tom & Jerry")] 4) = none := by
    decide +kernel
  have hnone : ∀ m k, cutAt none [] 1000 (keptViews none [] 1000 [triggerRow (ofString "Tom & Jerry")] 4) =
      some (m, k) → CutBetween m k := by
    intro m k h
    rw [hcut] at h
    cases h
  have hids : ([triggerRow (ofString "Tom & Jerry")].map (·.id)).Nodup := List.nodup_singleton _
  have hiff := routing_context_iff none [] 1000 hids (by decide : 1 ≤ 4)
  rw [hiff]
  exact hnone

/-- A text that does not fit, of ampersands. -/
def ampersands : MessageInRow := triggerRow (List.replicate 300 (unit '&'))

/-- **A text is cut in a unit**: the payload ends in a part of a reference, and is no markup. -/
theorem cut_in_unit : ¬Bounded none [] 1000 [ampersands] 4 (buildRoutingContext none [] 1000 [ampersands] 4) := by
  have hread : (buildRoutingContext none [] 1000 [ampersands] 4).toOption.map
      (fun t => (Markup.read t).isSome) = some false := by decide +kernel
  exact @not_bounded_of_read none [] 1000 [ampersands] 4 _ hread

end AgentDesk.Routing
