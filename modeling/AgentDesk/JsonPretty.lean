/-
# JSON over several lines

`JSON.stringify(value, null, 2)`: each element and each member stands on a line of its own, two spaces
further in than the bracket that holds it.

The white space is all between tokens, where the machine passes over it; a literal ends at a line break as
it does at a comma. So the text has the tree that the text on one line has.

* `Machine.Takes.before`: a value, and what follows it on the same line or on the next.
* `read_pretty`: **the text over several lines** has the tree of the value, whatever space follows it.
* `parse_pretty`: it is parsed to what the text on one line is parsed to.
-/
import AgentDesk.JsonRoundTrip

namespace JsonText

open Binary64

/-- A line break, and the indentation at a depth. -/
def newline (depth : ℕ) : Text := 0x0a :: List.replicate (2 * depth) 0x20

mutual

/-- `JSON.stringify(value, null, 2)`, at a depth. -/
def pretty (depth : ℕ) : Value → Text
  | .null => stringify .null
  | .bool b => stringify (.bool b)
  | .num x => stringify (.num x)
  | .str s => stringify (.str s)
  | .arr [] => [unit '[', unit ']']
  | .arr (v :: l) =>
    unit '[' :: (newline (depth + 1) ++ (pretty (depth + 1) v ++ (prettyElements (depth + 1) l ++
      (newline depth ++ [unit ']']))))
  | .obj [] => [unit '{', unit '}']
  | .obj ((key, v) :: fields) =>
    unit '{' :: (newline (depth + 1) ++ (quote key ++ unit ':' :: 0x20 :: (pretty (depth + 1) v ++
      (prettyMembers (depth + 1) fields ++ (newline depth ++ [unit '}'])))))

/-- Further elements. -/
def prettyElements (depth : ℕ) : List Value → Text
  | [] => []
  | v :: l => unit ',' :: (newline depth ++ (pretty depth v ++ prettyElements depth l))

/-- Further members. -/
def prettyMembers (depth : ℕ) : List (Text × Value) → Text
  | [] => []
  | (key, v) :: fields =>
    unit ',' :: (newline depth ++ (quote key ++ unit ':' :: 0x20 :: (pretty depth v ++ prettyMembers depth fields)))

end

/-! ### White space -/

theorem step_space {m : Machine} (hm : m.lex = .start) {c : UInt16} (hc : isSpace c = true) : m.step c = some m := by
  unfold Machine.step
  rw [hm]
  show m.token c = some m
  unfold Machine.token
  rw [if_pos hc]

theorem run_spaces {m : Machine} (hm : m.lex = .start) {t : Text} (ht : ∀ c ∈ t, isSpace c = true) : m.run t = some m := by
  induction t with
  | nil => rfl
  | cons c cs ih =>
    rw [Machine.run, step_space hm (ht c List.mem_cons_self), Option.bind_some]
    exact ih fun c' hc' => ht c' (List.mem_cons_of_mem c hc')

theorem newline_space (depth : ℕ) : ∀ c ∈ newline depth, isSpace c = true := by
  intro c hc
  rcases List.mem_cons.mp hc with rfl | hc
  · decide
  · rw [List.eq_of_mem_replicate hc]
    decide

theorem run_newline {m : Machine} (hm : m.lex = .start) (depth : ℕ) : m.run (newline depth) = some m :=
  run_spaces hm (newline_space depth)

theorem numStep_space {c : UInt16} (hc : isSpace c = true) (s : NumState) : s.step c = none := by
  have hcases : c = 0x20 ∨ c = 0x09 ∨ c = 0x0a ∨ c = 0x0d := by
    simpa [isSpace, or_assoc] using hc
  have hdigit : digit? c = none := by
    rcases hcases with rfl | rfl | rfl | rfl <;> decide
  have hfrac : s.afterFrac c = none := by
    rcases hcases with rfl | rfl | rfl | rfl <;> rfl
  have hint : s.afterInt c = none := by
    rcases hcases with rfl | rfl | rfl | rfl <;> rfl
  have hplus : c ≠ unit '+' := by
    rcases hcases with rfl | rfl | rfl | rfl <;> decide
  have hminus : c ≠ unit '-' := by
    rcases hcases with rfl | rfl | rfl | rfl <;> decide
  unfold NumState.step
  cases s.phase <;> simp [hdigit, hfrac, hint, hplus, hminus]

theorem step_settle {m m' : Machine} {c : UInt16} (hc : isSpace c = true)
    (hm : m.lex = .start ∨ ∃ s, m.lex = .num s) (h : m.settle = some m') : m.step c = m'.step c := by
  have hm' : m'.lex = .start := settle_start hm h
  rw [step_space hm' hc]
  rcases hm with hm | ⟨s, hs⟩
  · rw [settle_of_start hm] at h
    obtain rfl := Option.some.inj h
    exact step_space hm hc
  · unfold Machine.step
    rw [hs]
    dsimp only
    rw [numStep_space hc s, h]
    show m'.token c = some m'
    unfold Machine.token
    rw [if_pos hc]

/-- What may follow a value: the text is empty or begins with a delimiter or a space. -/
def Follows (text : Text) : Prop := ∀ c cs, text = c :: cs → Delimiter c ∨ isSpace c = true

theorem follows_newline (depth : ℕ) (t : Text) : Follows (newline depth ++ t) := by
  intro c cs h
  rw [newline, List.cons_append] at h
  obtain ⟨rfl, -⟩ := List.cons.inj h
  exact .inr (by decide)

theorem follows_comma (t : Text) : Follows (unit ',' :: t) := by
  intro c cs h
  obtain ⟨rfl, -⟩ := List.cons.inj h
  exact .inl (.inl rfl)

/-- **A value, and what follows it.** -/
theorem Machine.Takes.before {m m' m'' : Machine} {t u : Text} (h : m.Takes t m') (hu : m'.Takes u m'')
    (hnext : Follows u) : m.Takes (t ++ u) m'' := by
  by_cases hdelimited : Delimited u
  · exact h.append hu hdelimited
  · obtain ⟨c, cs, rfl, hspace⟩ : ∃ c cs, u = c :: cs ∧ isSpace c = true := by
      cases u with
      | nil => exact absurd (fun _ _ h => nomatch h) hdelimited
      | cons c cs =>
        rcases hnext c cs rfl with hc | hc
        · exact absurd (delimited_cons hc cs) hdelimited
        · exact ⟨c, cs, rfl, hc⟩
    obtain ⟨m₁, hrun, hsettle, hlex⟩ := h
    obtain ⟨m₂, hrun₂, hrest⟩ := hu
    refine ⟨m₂, ?_, hrest⟩
    rw [Machine.run] at hrun₂
    rw [Machine.run_append, hrun, Option.bind_some, Machine.run, step_settle hspace hlex hsettle]
    exact hrun₂

theorem takes_newline {m m' : Machine} (hm : m.lex = .start) (depth : ℕ) {t : Text} (h : m.Takes t m') :
    m.Takes (newline depth ++ t) m' := takes_of_run_append (run_newline hm depth) h

/-! ### Arrays and objects -/

theorem follows_elements (depth : ℕ) (l : List Value) (t : Text) :
    Follows (prettyElements (depth + 1) l ++ (newline depth ++ t)) := by
  cases l with
  | nil => exact follows_newline depth t
  | cons v l => exact follows_comma _

theorem follows_members (depth : ℕ) (fields : List (Text × Value)) (t : Text) :
    Follows (prettyMembers (depth + 1) fields ++ (newline depth ++ t)) := by
  cases fields with
  | nil => exact follows_newline depth t
  | cons f fields => exact follows_comma _

theorem run_pretty_name {want : Want} (hw : want = .key ∨ want = .member) (fields : List (Text × Tree))
    (stack : List Frame) (key : Text) :
    Machine.run ⟨.start, want, .obj fields :: stack⟩ (quote key ++ [unit ':', 0x20]) =
      some ⟨.start, .value, .member fields key :: stack⟩ := by
  have hname := run_name hw fields stack key
  have hsplit : quote key ++ [unit ':', 0x20] = (quote key ++ [unit ':']) ++ [0x20] := by simp
  rw [hsplit, Machine.run_append, hname, Option.bind_some]
  exact run_spaces rfl (List.forall_mem_singleton.mpr (by decide))

mutual

theorem takes_pretty : ∀ (v : Value) (depth : ℕ) {m m' : Machine}, m.lex = .start → m.value v.toTree = some m' →
    m.Takes (pretty depth v) m'
  | .null, _, _, _, hm, hv => by
    rw [pretty]
    exact takes_stringify .null hm hv
  | .bool b, _, _, _, hm, hv => by
    rw [pretty]
    exact takes_stringify (.bool b) hm hv
  | .num x, _, _, _, hm, hv => by
    rw [pretty]
    exact takes_stringify (.num x) hm hv
  | .str s, _, _, _, hm, hv => by
    rw [pretty]
    exact takes_stringify (.str s) hm hv
  | .arr [], _, _, _, hm, hv => by
    have hline := takes_stringify (.arr []) hm hv
    rw [stringify] at hline
    rw [pretty]
    exact hline
  | .arr (v :: l), depth, m, m', hm, hv => by
    rw [pretty]
    rw [Json.toTree, treeList] at hv
    obtain ⟨hw, hcomplete⟩ := value_inv hv
    have hfirst := takes_pretty v (depth + 1) (m := ⟨.start, .element, .arr [] :: m.stack⟩) rfl rfl
    have hrest := takes_prettyElements l depth [v.toTree] m.stack (takes_close_arr [v.toTree] hcomplete)
    exact .cons (step_enter hm hw).1
      (takes_newline rfl (depth + 1) (hfirst.before hrest (follows_elements depth l _)))
  | .obj [], _, _, _, hm, hv => by
    have hline := takes_stringify (.obj []) hm hv
    rw [stringify] at hline
    rw [pretty]
    exact hline
  | .obj ((key, v) :: fields), depth, m, m', hm, hv => by
    rw [pretty]
    rw [Json.toTree, treeFields] at hv
    obtain ⟨hw, hcomplete⟩ := value_inv hv
    have hname := run_pretty_name (.inr rfl : Want.member = .key ∨ Want.member = .member) [] m.stack key
    have hfirst := takes_pretty v (depth + 1) (m := ⟨.start, .value, .member [] key :: m.stack⟩) rfl rfl
    have hrest := takes_prettyMembers fields depth [(key, v.toTree)] m.stack (takes_close_obj [(key, v.toTree)] hcomplete)
    have hall := takes_of_run_append hname (hfirst.before hrest (follows_members depth fields _))
    rw [List.append_assoc] at hall
    exact .cons (step_enter hm hw).2 (takes_newline rfl (depth + 1) hall)

theorem takes_prettyElements : ∀ (l : List Value) (depth : ℕ) (done : List Tree) (stack : List Frame)
    {m' : Machine} {t : Text},
    Machine.Takes ⟨.start, .more, .arr ((treeList l).reverse ++ done) :: stack⟩ t m' →
    Machine.Takes ⟨.start, .more, .arr done :: stack⟩ (prettyElements (depth + 1) l ++ (newline depth ++ t)) m'
  | [], depth, done, stack, m', t, h => by
    rw [prettyElements, List.nil_append]
    rw [treeList] at h
    exact takes_newline rfl depth h
  | v :: l, depth, done, stack, m', t, h => by
    rw [prettyElements]
    rw [treeList, List.reverse_cons, List.append_assoc] at h
    have hcomma : Machine.step ⟨.start, .more, .arr done :: stack⟩ (unit ',') =
        some ⟨.start, .value, .arr done :: stack⟩ := rfl
    have hfirst := takes_pretty v (depth + 1) (m := ⟨.start, .value, .arr done :: stack⟩) rfl rfl
    have hrest := takes_prettyElements l depth (v.toTree :: done) stack h
    have hall := takes_newline rfl (depth + 1) (hfirst.before hrest (follows_elements depth l t))
    rw [List.cons_append, List.append_assoc, List.append_assoc]
    exact .cons hcomma hall

theorem takes_prettyMembers : ∀ (fields : List (Text × Value)) (depth : ℕ) (done : List (Text × Tree))
    (stack : List Frame) {m' : Machine} {t : Text},
    Machine.Takes ⟨.start, .more, .obj ((treeFields fields).reverse ++ done) :: stack⟩ t m' →
    Machine.Takes ⟨.start, .more, .obj done :: stack⟩ (prettyMembers (depth + 1) fields ++ (newline depth ++ t)) m'
  | [], depth, done, stack, m', t, h => by
    rw [prettyMembers, List.nil_append]
    rw [treeFields] at h
    exact takes_newline rfl depth h
  | (key, v) :: fields, depth, done, stack, m', t, h => by
    rw [prettyMembers]
    rw [treeFields, List.reverse_cons, List.append_assoc] at h
    have hcomma : Machine.step ⟨.start, .more, .obj done :: stack⟩ (unit ',') =
        some ⟨.start, .key, .obj done :: stack⟩ := rfl
    have hname := run_pretty_name (.inl rfl : Want.key = .key ∨ Want.key = .member) done stack key
    have hfirst := takes_pretty v (depth + 1) (m := ⟨.start, .value, .member done key :: stack⟩) rfl rfl
    have hrest := takes_prettyMembers fields depth ((key, v.toTree) :: done) stack h
    have hall := takes_of_run_append hname (hfirst.before hrest (follows_members depth fields t))
    have hline := takes_newline (m := ⟨.start, .key, .obj done :: stack⟩) rfl (depth + 1) hall
    rw [List.cons_append]
    refine .cons hcomma ?_
    simpa [List.append_assoc] using hline

end

/-- **The text over several lines** has the tree of the value, whatever space follows it. -/
theorem read_pretty (v : Value) (depth : ℕ) {t : Text} (ht : ∀ c ∈ t, isSpace c = true) :
    read (pretty depth v ++ t) = some v.toTree := by
  have hvalue : Machine.init.value v.toTree = some ⟨.start, .done v.toTree, []⟩ := rfl
  have hspaces : Machine.Takes ⟨.start, .done v.toTree, []⟩ t ⟨.start, .done v.toTree, []⟩ :=
    takes_of_run (run_spaces rfl ht) rfl
  have hfollows : Follows t := by
    rintro c cs rfl
    exact .inr (ht c List.mem_cons_self)
  obtain ⟨m, hrun, hsettle, -⟩ := (takes_pretty v depth rfl hvalue).before hspaces hfollows
  rw [read, hrun, Option.bind_some, Machine.result, hsettle]
  rfl

/-- It is parsed to what the text on one line is parsed to. -/
theorem parse_pretty (v : Value) {t : Text} (ht : ∀ c ∈ t, isSpace c = true) :
    parse (pretty 0 v ++ t) = parse (stringify v) := by
  rw [parse, parse, read_pretty v 0 ht, read_stringify]

end JsonText
