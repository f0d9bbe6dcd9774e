/-
# Writing JSON and reading it back

* `read_stringify`: what `stringify` writes is in the grammar, and its tree is `toTree`.
* `distinct_toTree`: it has no name twice in an object, when the value is one that
  `parse` gives (`ordered_eval`).
* `parse_stringify`: such a value is parsed back exactly when it has no number that
  is infinite (written as `null`) or negative zero (written as `0`).

A literal has no end of its own: the machine has it still open after the text of a
number. `Machine.Takes` closes it, and what follows a value in an array or an object
begins with a delimiter, which does the same (`Takes.append`).
-/
import Mathlib.Data.List.TakeWhile
import Mathlib.Tactic.IntervalCases
import AgentDesk.JsonNumbers

namespace JsonText

open Binary64

/-! ### The tree of a written value -/

/-- The token a number is written as. -/
def numberTree : Double → Tree
  | .infinity _ => .null
  | .finite neg n _ => .num (if n = 0 then ⟨false, 0, 0⟩ else literal neg (shortest n))

mutual

def Json.toTree : Value → Tree
  | .null => .null
  | .bool b => .bool b
  | .num x => numberTree x
  | .str s => .str s
  | .arr l => .arr (treeList l)
  | .obj fields => .obj (treeFields fields)

def treeList : List Value → List Tree
  | [] => []
  | v :: l => v.toTree :: treeList l

def treeFields : List (Text × Value) → List (Text × Tree)
  | [] => []
  | (key, v) :: fields => (key, v.toTree) :: treeFields fields

end

/-! ### What a text does to the machine -/

theorem Machine.run_append (m : Machine) (t u : Text) : m.run (t ++ u) = (m.run t).bind fun m => m.run u := by
  induction t generalizing m with
  | nil => rfl
  | cons c cs ih =>
    rw [List.cons_append, Machine.run, Machine.run]
    cases m.step c with
    | none => rfl
    | some m' => exact ih m'

/-- The text takes the machine to `m'`, but for a literal that may still go on. -/
def Machine.Takes (m : Machine) (text : Text) (m' : Machine) : Prop :=
  ∃ m₁, m.run text = some m₁ ∧ m₁.settle = some m' ∧ (m₁.lex = .start ∨ ∃ s, m₁.lex = .num s)

/-- A comma or a closing bracket. -/
def Delimiter (c : UInt16) : Prop := c = unit ',' ∨ c = unit ']' ∨ c = unit '}'

/-- The text is empty or begins with a delimiter. -/
def Delimited (text : Text) : Prop := ∀ c cs, text = c :: cs → Delimiter c

theorem delimited_cons {c : UInt16} (hc : Delimiter c) (cs : Text) : Delimited (c :: cs) := by
  intro c' cs' h
  rw [← (List.cons.inj h).1]
  exact hc

theorem Delimited.append {t u : Text} (ht : Delimited t) (hu : Delimited u) : Delimited (t ++ u) := by
  cases t with
  | nil => exact hu
  | cons c cs => exact delimited_cons (ht c cs rfl) (cs ++ u)

theorem complete_start {stack : List Frame} {v : Tree} {m : Machine} (h : Machine.complete stack v = some m) :
    m.lex = .start := by
  unfold Machine.complete at h
  split at h
  · obtain rfl := Option.some.inj h
    rfl
  · obtain rfl := Option.some.inj h
    rfl
  · obtain rfl := Option.some.inj h
    rfl
  · cases h

theorem value_start {m m' : Machine} {v : Tree} (h : m.value v = some m') : m'.lex = .start := by
  unfold Machine.value at h
  split at h
  · exact complete_start h
  · exact complete_start h
  · cases h

theorem settle_of_start {m : Machine} (h : m.lex = .start) : m.settle = some m := by
  unfold Machine.settle
  rw [h]

theorem settle_start {m m' : Machine} (hm : m.lex = .start ∨ ∃ s, m.lex = .num s) (h : m.settle = some m') :
    m'.lex = .start := by
  rcases hm with hm | ⟨s, hs⟩
  · rw [settle_of_start hm] at h
    obtain rfl := Option.some.inj h
    exact hm
  · unfold Machine.settle at h
    rw [hs] at h
    dsimp only at h
    split at h
    · exact value_start h
    · cases h

theorem Machine.Takes.start {m m' : Machine} {t : Text} (h : m.Takes t m') : m'.lex = .start := by
  obtain ⟨m₁, -, hsettle, hlex⟩ := h
  exact settle_start hlex hsettle

theorem takes_of_run {m m' : Machine} {t : Text} (h : m.run t = some m') (hm : m'.lex = .start) : m.Takes t m' :=
  ⟨m', h, settle_of_start hm, .inl hm⟩

theorem Machine.Takes.cons {m m₁ m' : Machine} {c : UInt16} {t : Text} (hc : m.step c = some m₁)
    (h : m₁.Takes t m') : m.Takes (c :: t) m' := by
  obtain ⟨m₂, hrun, hrest⟩ := h
  refine ⟨m₂, ?_, hrest⟩
  rw [Machine.run, hc]
  exact hrun

theorem numStep_delimiter {c : UInt16} (hc : Delimiter c) (s : NumState) : s.step c = none := by
  have hdigit : digit? c = none := by
    rcases hc with rfl | rfl | rfl <;> decide
  have hfrac : s.afterFrac c = none := by
    rcases hc with rfl | rfl | rfl <;> rfl
  have hint : s.afterInt c = none := by
    rcases hc with rfl | rfl | rfl <;> rfl
  have hplus : c ≠ unit '+' := by
    rcases hc with rfl | rfl | rfl <;> decide
  have hminus : c ≠ unit '-' := by
    rcases hc with rfl | rfl | rfl <;> decide
  unfold NumState.step
  cases s.phase <;> simp [hdigit, hfrac, hint, hplus, hminus]

/-- A delimiter ends a pending literal. -/
theorem step_delimiter {m m' : Machine} {c : UInt16} (hc : Delimiter c)
    (hm : m.lex = .start ∨ ∃ s, m.lex = .num s) (h : m.settle = some m') : m.step c = m'.token c := by
  rcases hm with hm | ⟨s, hs⟩
  · rw [settle_of_start hm] at h
    obtain rfl := Option.some.inj h
    unfold Machine.step
    rw [hm]
  · unfold Machine.step
    rw [hs]
    dsimp only
    rw [numStep_delimiter hc s, h]
    rfl

theorem Machine.Takes.append {m m' m'' : Machine} {t u : Text} (h : m.Takes t m') (hu : m'.Takes u m'')
    (hnext : Delimited u) : m.Takes (t ++ u) m'' := by
  have hstart := h.start
  obtain ⟨m₁, hrun, hsettle, hlex⟩ := h
  cases u with
  | nil =>
    obtain ⟨m₂, hnil, hrest, -⟩ := hu
    obtain rfl : m' = m₂ := Option.some.inj hnil
    rw [settle_of_start hstart] at hrest
    obtain rfl := Option.some.inj hrest
    rw [List.append_nil]
    exact ⟨m₁, hrun, hsettle, hlex⟩
  | cons c cs =>
    have hc := hnext c cs rfl
    obtain ⟨m₂, hrun₂, hrest⟩ := hu
    refine ⟨m₂, ?_, hrest⟩
    have hstep : m'.step c = m'.token c := by
      unfold Machine.step
      rw [hstart]
    rw [Machine.run, hstep] at hrun₂
    rw [Machine.run_append, hrun, Option.bind_some, Machine.run, step_delimiter hc hlex hsettle, hrun₂]

/-! ### Strings -/

theorem hexDigit?_hexUnit : ∀ d < 16, hexDigit? (hexUnit d) = some d := by decide

theorem run_hexEscape (m : Machine) (acc : Text) (c : UInt16) :
    Machine.run { m with lex := .str acc } (hexEscape c) = some { m with lex := .str (c :: acc) } := by
  have hc : c.toNat < 65536 := c.toNat_lt
  have h₁ := hexDigit?_hexUnit (c.toNat / 4096) (by omega)
  have h₂ := hexDigit?_hexUnit (c.toNat / 256 % 16) (by omega)
  have h₃ := hexDigit?_hexUnit (c.toNat / 16 % 16) (by omega)
  have h₄ := hexDigit?_hexUnit (c.toNat % 16) (by omega)
  have hvalue : 16 * (16 * (16 * (16 * 0 + c.toNat / 4096) + c.toNat / 256 % 16) + c.toNat / 16 % 16) +
      c.toNat % 16 = c.toNat := by omega
  have hopen : Machine.step { m with lex := .str acc } (unit '\\') = some { m with lex := .escape acc } := rfl
  have hu : Machine.step { m with lex := .escape acc } (unit 'u') = some { m with lex := .hex acc 3 0 } := rfl
  have hmore : ∀ (left value : ℕ) (x : UInt16) (d : ℕ), hexDigit? x = some d →
      Machine.step { m with lex := .hex acc (left + 1) value } x =
        some { m with lex := .hex acc left (16 * value + d) } := by
    intro left value x d hx
    show (hexDigit? x).map _ = _
    rw [hx]
    rfl
  have hlast : ∀ (value : ℕ) (x : UInt16) (d : ℕ), hexDigit? x = some d →
      Machine.step { m with lex := .hex acc 0 value } x =
        some { m with lex := .str (UInt16.ofNat (16 * value + d) :: acc) } := by
    intro value x d hx
    show (hexDigit? x).map _ = _
    rw [hx]
    rfl
  unfold hexEscape
  rw [Machine.run, hopen, Option.bind_some, Machine.run, hu, Option.bind_some, Machine.run, hmore 2 _ _ _ h₁,
    Option.bind_some, Machine.run, hmore 1 _ _ _ h₂, Option.bind_some, Machine.run, hmore 0 _ _ _ h₃,
    Option.bind_some, Machine.run, hlast _ _ _ h₄, hvalue, UInt16.ofNat_toNat]
  rfl

theorem run_escapeUnit (m : Machine) (acc : Text) (c : UInt16) :
    Machine.run { m with lex := .str acc } (escapeUnit c) = some { m with lex := .str (c :: acc) } := by
  unfold escapeUnit
  split
  · rename_i h
    rcases h with rfl | rfl <;> rfl
  rename_i hplain
  split
  · rename_i h
    rw [h]
    rfl
  split
  · rename_i h
    rw [h]
    rfl
  split
  · rename_i h
    rw [h]
    rfl
  split
  · rename_i h
    rw [h]
    rfl
  split
  · rename_i h
    rw [h]
    rfl
  split
  · exact run_hexEscape m acc c
  · rename_i hraw
    rw [not_or] at hplain
    have hlow : ¬ c < 0x20 := by
      intro hlow
      exact hraw (by simp [hlow])
    have hstep : Machine.step { m with lex := .str acc } c = some { m with lex := .str (c :: acc) } := by
      show (if c = unit '"' then _ else if c = unit '\\' then _ else if c < 0x20 then _ else _) = _
      rw [if_neg hplain.1, if_neg hplain.2, if_neg hlow]
    rw [Machine.run, hstep]
    rfl

/-- Half of a pair may stand as it is. -/
theorem step_surrogate (m : Machine) (acc : Text) {c : UInt16} (hc : 0xd800 ≤ c) :
    Machine.step { m with lex := .str acc } c = some { m with lex := .str (c :: acc) } := by
  have hlt : ∀ x : UInt16, x < 0xd800 → c ≠ x := by
    rintro x hx rfl
    exact absurd (UInt16.lt_of_lt_of_le hx hc) (UInt16.lt_irrefl c)
  have hlow : ¬ c < 0x20 := by
    intro hlow
    have hle : (0xd800 : UInt16) < 0x20 := UInt16.lt_of_le_of_lt hc hlow
    exact absurd hle (by decide)
  show (if c = unit '"' then _ else if c = unit '\\' then _ else if c < 0x20 then _ else _) = _
  rw [if_neg (hlt _ (by decide)), if_neg (hlt _ (by decide)), if_neg hlow]

theorem run_escapeText (m : Machine) (s acc : Text) :
    Machine.run { m with lex := .str acc } (escapeText s) = some { m with lex := .str (s.reverse ++ acc) } := by
  induction s using escapeText.induct generalizing acc with
  | case1 => rfl
  | case2 c => exact run_escapeUnit m acc c
  | case3 c d rest hpair ih =>
    rw [Bool.and_eq_true] at hpair
    have hlead : 0xd800 ≤ c := by
      have h := hpair.1
      simp only [isLead, Bool.and_eq_true, decide_eq_true_eq] at h
      exact h.1
    have htrail : 0xd800 ≤ d := by
      have h := hpair.2
      simp only [isTrail, Bool.and_eq_true, decide_eq_true_eq] at h
      exact UInt16.le_trans (by decide) h.1
    have hpair' : (isLead c && isTrail d) = true := by rw [Bool.and_eq_true]; exact hpair
    rw [escapeText, if_pos hpair', Machine.run, step_surrogate m acc hlead, Option.bind_some, Machine.run,
      step_surrogate m (c :: acc) htrail, Option.bind_some, ih (d :: c :: acc)]
    simp
  | case4 c d rest hpair ih =>
    rw [escapeText, if_neg hpair, Machine.run_append, run_escapeUnit, Option.bind_some, ih (c :: acc)]
    simp

/-- A written string, between tokens. -/
theorem run_quote {m : Machine} (hm : m.lex = .start) (s : Text) : m.run (quote s) = m.string s := by
  have hopen : m.step (unit '"') = some { m with lex := .str [] } := by
    unfold Machine.step
    rw [hm]
    rfl
  have hclose : Machine.step { m with lex := .str (s.reverse ++ []) } (unit '"') = m.string s := by
    show Machine.string { m with lex := _ } _ = _
    rw [List.append_nil, List.reverse_reverse]
    rfl
  unfold quote
  rw [Machine.run, hopen, Option.bind_some, Machine.run_append, run_escapeText, Option.bind_some, Machine.run, hclose]
  cases m.string s <;> rfl

/-! ### Numbers and words -/

theorem Machine.run_num {m : Machine} {s s' : NumState} {t : Text} (h : s.run t = some s') :
    Machine.run { m with lex := .num s } t = some { m with lex := .num s' } := by
  induction t generalizing s with
  | nil =>
    obtain rfl : s = s' := Option.some.inj h
    rfl
  | cons c cs ih =>
    rw [NumState.run] at h
    obtain ⟨s₁, hstep, hrest⟩ := Option.bind_eq_some_iff.mp h
    have hm : Machine.step { m with lex := .num s } c = some { m with lex := .num s₁ } := by
      simp [Machine.step, hstep]
    rw [Machine.run, hm]
    exact ih hrest

/-- A digit begins a literal. -/
theorem token_digit (m : Machine) : ∀ d < 10, m.token (digitUnit d) =
    ((NumState.start false).step (digitUnit d)).map fun s => { m with lex := .num s } := by
  intro d hd
  interval_cases d <;> rfl

theorem token_minus (m : Machine) : m.token (unit '-') = some { m with lex := .num (.start true) } := rfl

theorem takes_literal {m m' : Machine} (hm : m.lex = .start) {t : Text} {neg : Bool} {c : Decimal}
    (ht : Spells t neg c) (hv : m.value (.num c) = some m') :
    m.Takes ((if neg then [unit '-'] else []) ++ t) m' := by
  obtain ⟨⟨d, u, rfl, hd⟩, s, hrun, hacc, hdec⟩ := ht
  have hstep : ∀ x, m.step x = m.token x := fun x => by
    unfold Machine.step
    rw [hm]
  refine ⟨{ m with lex := .num s }, ?_, ?_, .inr ⟨s, rfl⟩⟩
  · cases neg with
    | true =>
      rw [if_pos rfl, List.singleton_append, Machine.run, hstep, token_minus, Option.bind_some]
      exact Machine.run_num hrun
    | false =>
      rw [NumState.run] at hrun
      obtain ⟨s₁, hfirst, hrest⟩ := Option.bind_eq_some_iff.mp hrun
      rw [if_neg (by simp), List.nil_append, Machine.run, hstep, token_digit m d hd, hfirst]
      exact Machine.run_num hrest
  · show (if s.accepting = true then Machine.value { m with lex := _ } (.num s.decimal) else none) = some m'
    rw [if_pos hacc, hdec]
    exact hv

theorem run_word {m : Machine} (hm : m.lex = .start) :
    m.run ("null".toList.map unit) = m.value .null ∧ m.run ("true".toList.map unit) = m.value (.bool true) ∧
    m.run ("false".toList.map unit) = m.value (.bool false) := by
  obtain ⟨lex, want, stack⟩ := m
  obtain rfl : lex = .start := hm
  have hbind : ∀ x : Option Machine, (x.bind fun m => m.run []) = x := fun x => by cases x <;> rfl
  exact ⟨hbind (Machine.value _ _), hbind (Machine.value _ _), hbind (Machine.value _ _)⟩

theorem takes_number {m m' : Machine} (hm : m.lex = .start) {x : Double} (hv : m.value (numberTree x) = some m') :
    m.Takes (numberText x) m' := by
  cases x with
  | infinity neg => exact takes_of_run ((run_word hm).1.trans hv) (value_start hv)
  | finite neg n hn =>
    simp only [numberTree] at hv
    simp only [numberText]
    by_cases hzero : n = 0
    · rw [if_pos hzero] at hv ⊢
      have hspell : Spells [unit '0'] false ⟨false, 0, 0⟩ := by
        refine ⟨⟨0, [], rfl, by omega⟩, ⟨.zero, false, 0, 0, false, 0⟩, rfl, rfl, rfl⟩
      exact takes_literal hm hspell hv
    · rw [if_neg hzero] at hv ⊢
      have hpos := shortest_pos hn (Nat.pos_of_ne_zero hzero)
      exact takes_literal hm (spells_magnitude hpos neg) hv

/-! ### Arrays and objects -/

theorem value_inv {m m' : Machine} {v : Tree} (h : m.value v = some m') :
    (m.want = .value ∨ m.want = .element) ∧ Machine.complete m.stack v = some m' := by
  unfold Machine.value at h
  split at h
  · rename_i hw
    exact ⟨.inl hw, h⟩
  · rename_i hw
    exact ⟨.inr hw, h⟩
  · cases h

/-- An opening bracket where a value may stand. -/
theorem step_enter {m : Machine} (hm : m.lex = .start) (hw : m.want = .value ∨ m.want = .element) :
    m.step (unit '[') = some ⟨.start, .element, .arr [] :: m.stack⟩ ∧
    m.step (unit '{') = some ⟨.start, .member, .obj [] :: m.stack⟩ := by
  obtain ⟨lex, want, stack⟩ := m
  obtain rfl : lex = .start := hm
  rcases hw with rfl | rfl <;> exact ⟨rfl, rfl⟩

theorem delimited_elements (l : List Value) : Delimited (elementsText l) := by
  cases l with
  | nil => exact fun _ _ h => nomatch h
  | cons v l => exact delimited_cons (.inl rfl) _

theorem delimited_members (fields : List (Text × Value)) : Delimited (membersText fields) := by
  cases fields with
  | nil => exact fun _ _ h => nomatch h
  | cons f fields => exact delimited_cons (.inl rfl) _

/-- A closing bracket completes what is open, the elements in their order. -/
theorem takes_close_arr {l : List Tree} (done : List Tree) {stack : List Frame} {m : Machine}
    (h : Machine.complete stack (.arr (done ++ l)) = some m) :
    Machine.Takes ⟨.start, .more, .arr (l.reverse ++ done.reverse) :: stack⟩ [unit ']'] m := by
  have hclose : Machine.step ⟨.start, .more, .arr (l.reverse ++ done.reverse) :: stack⟩ (unit ']') = some m := by
    rw [← h]
    show Machine.complete stack (.arr _) = _
    rw [← List.reverse_append, List.reverse_reverse]
  exact .cons hclose (takes_of_run rfl (complete_start h))

theorem takes_close_obj {fields : List (Text × Tree)} (done : List (Text × Tree)) {stack : List Frame} {m : Machine}
    (h : Machine.complete stack (.obj (done ++ fields)) = some m) :
    Machine.Takes ⟨.start, .more, .obj (fields.reverse ++ done.reverse) :: stack⟩ [unit '}'] m := by
  have hclose : Machine.step ⟨.start, .more, .obj (fields.reverse ++ done.reverse) :: stack⟩ (unit '}') = some m := by
    rw [← h]
    show Machine.complete stack (.obj _) = _
    rw [← List.reverse_append, List.reverse_reverse]
  exact .cons hclose (takes_of_run rfl (complete_start h))

/-- A name and its colon. -/
theorem run_name {want : Want} (hw : want = .key ∨ want = .member) (fields : List (Text × Tree))
    (stack : List Frame) (key : Text) :
    Machine.run ⟨.start, want, .obj fields :: stack⟩ (quote key ++ [unit ':']) =
      some ⟨.start, .value, .member fields key :: stack⟩ := by
  rw [Machine.run_append, run_quote rfl]
  rcases hw with rfl | rfl <;> rfl

theorem takes_of_run_append {m m₁ m' : Machine} {t u : Text} (h : m.run t = some m₁) (hu : m₁.Takes u m') :
    m.Takes (t ++ u) m' := by
  obtain ⟨m₂, hrun, hrest⟩ := hu
  refine ⟨m₂, ?_, hrest⟩
  rw [Machine.run_append, h]
  exact hrun

mutual

/-- A written value is one value to the machine. -/
theorem takes_stringify : ∀ (v : Value) {m m' : Machine}, m.lex = .start → m.value v.toTree = some m' →
    m.Takes (stringify v) m'
  | .null, _, _, hm, hv => by
    rw [stringify]
    exact takes_of_run ((run_word hm).1.trans (by simpa [Json.toTree] using hv)) (value_start hv)
  | .bool true, _, _, hm, hv => by
    rw [stringify]
    exact takes_of_run ((run_word hm).2.1.trans (by simpa [Json.toTree] using hv)) (value_start hv)
  | .bool false, _, _, hm, hv => by
    rw [stringify]
    exact takes_of_run ((run_word hm).2.2.trans (by simpa [Json.toTree] using hv)) (value_start hv)
  | .num x, _, _, hm, hv => by
    rw [stringify]
    exact takes_number hm (by simpa [Json.toTree] using hv)
  | .str s, m, m', hm, hv => by
    rw [stringify]
    rw [Json.toTree] at hv
    obtain ⟨hw, -⟩ := value_inv hv
    have hstring : m.string s = m.value (.str s) := by
      unfold Machine.string
      rcases hw with hw | hw <;> rw [hw]
    exact takes_of_run ((run_quote hm s).trans (hstring.trans hv)) (value_start hv)
  | .arr [], m, m', hm, hv => by
    rw [stringify]
    rw [Json.toTree, treeList] at hv
    obtain ⟨hw, hcomplete⟩ := value_inv hv
    have hclose : Machine.step ⟨.start, .element, .arr [] :: m.stack⟩ (unit ']') = some m' := hcomplete
    refine .cons (step_enter hm hw).1 (takes_of_run ?_ (value_start hv))
    rw [Machine.run, hclose]
    rfl
  | .arr (v :: l), m, m', hm, hv => by
    rw [stringify]
    rw [Json.toTree, treeList] at hv
    obtain ⟨hw, hcomplete⟩ := value_inv hv
    have hfirst := takes_stringify v (m := ⟨.start, .element, .arr [] :: m.stack⟩) rfl rfl
    have hrest := takes_elements l [v.toTree] m.stack
    have hend := takes_close_arr [v.toTree] hcomplete
    have hclose : Delimited [unit ']'] := delimited_cons (.inr (.inl rfl)) []
    exact .cons (step_enter hm hw).1
      (hfirst.append (hrest.append hend hclose) ((delimited_elements l).append hclose))
  | .obj [], m, m', hm, hv => by
    rw [stringify]
    rw [Json.toTree, treeFields] at hv
    obtain ⟨hw, hcomplete⟩ := value_inv hv
    have hclose : Machine.step ⟨.start, .member, .obj [] :: m.stack⟩ (unit '}') = some m' := hcomplete
    refine .cons (step_enter hm hw).2 (takes_of_run ?_ (value_start hv))
    rw [Machine.run, hclose]
    rfl
  | .obj ((key, v) :: fields), m, m', hm, hv => by
    rw [stringify]
    rw [Json.toTree, treeFields] at hv
    obtain ⟨hw, hcomplete⟩ := value_inv hv
    have hname := run_name (.inr rfl : Want.member = .key ∨ Want.member = .member) [] m.stack key
    have hfirst := takes_stringify v (m := ⟨.start, .value, .member [] key :: m.stack⟩) rfl rfl
    have hrest := takes_members fields [(key, v.toTree)] m.stack
    have hend := takes_close_obj [(key, v.toTree)] hcomplete
    have hclose : Delimited [unit '}'] := delimited_cons (.inr (.inr rfl)) []
    have hbody := hfirst.append (hrest.append hend hclose) ((delimited_members fields).append hclose)
    have hall := takes_of_run_append hname hbody
    rw [List.append_assoc, List.singleton_append] at hall
    exact .cons (step_enter hm hw).2 hall

theorem takes_elements : ∀ (l : List Value) (done : List Tree) (stack : List Frame),
    Machine.Takes ⟨.start, .more, .arr done :: stack⟩ (elementsText l)
      ⟨.start, .more, .arr ((treeList l).reverse ++ done) :: stack⟩
  | [], done, stack => by
    rw [elementsText, treeList]
    exact takes_of_run rfl rfl
  | v :: l, done, stack => by
    rw [elementsText, treeList]
    have hcomma : Machine.step ⟨.start, .more, .arr done :: stack⟩ (unit ',') =
        some ⟨.start, .value, .arr done :: stack⟩ := rfl
    have hfirst := takes_stringify v (m := ⟨.start, .value, .arr done :: stack⟩) rfl rfl
    have hrest := takes_elements l (v.toTree :: done) stack
    have hall := hfirst.append hrest (delimited_elements l)
    rw [List.reverse_cons, List.append_assoc]
    exact .cons hcomma hall

theorem takes_members : ∀ (fields : List (Text × Value)) (done : List (Text × Tree)) (stack : List Frame),
    Machine.Takes ⟨.start, .more, .obj done :: stack⟩ (membersText fields)
      ⟨.start, .more, .obj ((treeFields fields).reverse ++ done) :: stack⟩
  | [], done, stack => by
    rw [membersText, treeFields]
    exact takes_of_run rfl rfl
  | (key, v) :: fields, done, stack => by
    rw [membersText, treeFields]
    have hcomma : Machine.step ⟨.start, .more, .obj done :: stack⟩ (unit ',') =
        some ⟨.start, .key, .obj done :: stack⟩ := rfl
    have hname := run_name (.inl rfl : Want.key = .key ∨ Want.key = .member) done stack key
    have hfirst := takes_stringify v (m := ⟨.start, .value, .member done key :: stack⟩) rfl rfl
    have hrest := takes_members fields ((key, v.toTree) :: done) stack
    have hall := takes_of_run_append hname (hfirst.append hrest (delimited_members fields))
    rw [List.append_assoc, List.singleton_append] at hall
    rw [List.reverse_cons, List.append_assoc]
    exact .cons hcomma hall

end

/-- **What is written is in the grammar.** -/
theorem read_stringify (v : Value) : read (stringify v) = some v.toTree := by
  have hvalue : Machine.init.value v.toTree = some ⟨.start, .done v.toTree, []⟩ := rfl
  obtain ⟨m, hrun, hsettle, -⟩ := takes_stringify v rfl hvalue
  rw [read, hrun, Option.bind_some, Machine.result, hsettle]
  rfl

/-! ### Names in order -/

section Everywhere

variable {ν : Type}

mutual

/-- The names of every object in the value satisfy `P`. -/
def Json.AllNames (P : List Text → Prop) : Json ν → Prop
  | .arr l => AllNamesList P l
  | .obj fields => P (fields.map (·.1)) ∧ AllNamesFields P fields
  | _ => True

def AllNamesList (P : List Text → Prop) : List (Json ν) → Prop
  | [] => True
  | v :: l => v.AllNames P ∧ AllNamesList P l

def AllNamesFields (P : List Text → Prop) : List (Text × Json ν) → Prop
  | [] => True
  | (_, v) :: fields => v.AllNames P ∧ AllNamesFields P fields

end

mutual

/-- Every number in the value satisfies `p`. -/
def Json.allNumbers (p : ν → Bool) : Json ν → Bool
  | .num x => p x
  | .arr l => allNumbersList p l
  | .obj fields => allNumbersFields p fields
  | _ => true

def allNumbersList (p : ν → Bool) : List (Json ν) → Bool
  | [] => true
  | v :: l => v.allNumbers p && allNumbersList p l

def allNumbersFields (p : ν → Bool) : List (Text × Json ν) → Bool
  | [] => true
  | (_, v) :: fields => v.allNumbers p && allNumbersFields p fields

end

end Everywhere

/-- The order of an object's properties. -/
def InOrder (names : List Text) : Prop := names.Pairwise fun a b => a ≠ b ∧ before a b = true

/-- An object as JavaScript has it. -/
def Json.Ordered (v : Value) : Prop := v.AllNames InOrder

/-- No object has a name twice. -/
def Json.Distinct (t : Tree) : Prop := t.AllNames List.Nodup

/-- An infinity is written as `null`, and negative zero as `0`. -/
def writable : Double → Bool
  | .infinity _ => false
  | .finite neg n _ => !(n = 0 && neg)

def Json.writable (v : Value) : Bool := v.allNumbers JsonText.writable

theorem InOrder.nodup {names : List Text} (h : InOrder names) : names.Nodup :=
  List.Pairwise.imp (fun hab => hab.1) h

/-- Array indices are written in one way. -/
theorem arrayIndex_inj {a b : Text} {i : ℕ} (ha : arrayIndex a = some i) (hb : arrayIndex b = some i) : a = b := by
  have htext : ∀ {c : Text}, arrayIndex c = some i → c = decimalText i := by
    intro c hc
    unfold arrayIndex at hc
    dsimp only at hc
    split at hc
    · rename_i h
      rw [← Option.some.inj hc]
      exact h.1
    · cases hc
  rw [htext ha, htext hb]

theorem before_iff {a b : Text} : before a b = true ↔ match arrayIndex a, arrayIndex b with
    | some i, some j => i < j
    | none, some _ => False
    | _, none => True := by
  unfold before
  cases arrayIndex a <;> cases arrayIndex b <;> simp

/-- Of two names that differ one is before the other. -/
theorem before_of_not {a b : Text} (hne : a ≠ b) (h : before a b = false) : before b a = true := by
  rw [before_iff]
  have h := fun hab => Bool.eq_false_iff.mp h (before_iff.mpr hab)
  cases ha : arrayIndex a with
  | none =>
    cases hb : arrayIndex b with
    | none =>
      rw [ha, hb] at h
      exact (h trivial).elim
    | some j => trivial
  | some i =>
    cases hb : arrayIndex b with
    | none =>
      rw [ha, hb] at h
      exact (h trivial).elim
    | some j =>
      rw [ha, hb] at h
      have hij : i ≠ j := by
        rintro rfl
        exact hne (arrayIndex_inj ha hb)
      show j < i
      have hnot : ¬ i < j := h
      omega

/-- A name that has come before one stays before the later ones; the last of the three is not before the first. -/
theorem before_trans {a b c : Text} (hab : before a b = false) (hbc : before b a = true)
    (hac : before a c = true) : before b c = true := by
  rw [before_iff] at hbc hac ⊢
  have hab := fun h => Bool.eq_false_iff.mp hab (before_iff.mpr h)
  cases hb : arrayIndex b with
  | none =>
    cases ha : arrayIndex a with
    | none =>
      rw [ha, hb] at hab
      exact (hab trivial).elim
    | some i =>
      rw [ha, hb] at hbc
      exact hbc.elim
  | some j =>
    cases hc : arrayIndex c with
    | none => trivial
    | some k =>
      cases ha : arrayIndex a with
      | none =>
        rw [ha, hc] at hac
        exact hac.elim
      | some i =>
        rw [ha, hb] at hbc
        rw [ha, hc] at hac
        exact Nat.lt_trans hbc hac

section Insert

variable {α : Type}

/-- A name that all others are before goes to the end. -/
theorem insertField_last {fields : List (Text × α)} {key : Text} {v : α}
    (h : ∀ f ∈ fields, f.1 ≠ key ∧ before f.1 key = true) : insertField fields key v = fields ++ [(key, v)] := by
  have hnew : ¬ (fields.any fun f => f.1 = key) = true := by
    rw [List.any_eq_true]
    rintro ⟨f, hf, heq⟩
    exact (h f hf).1 (of_decide_eq_true heq)
  have htake : fields.takeWhile (fun f => before f.1 key) = fields :=
    List.takeWhile_eq_self_iff.mpr fun f hf => (h f hf).2
  have hdrop : fields.dropWhile (fun f => before f.1 key) = [] :=
    List.dropWhile_eq_nil_iff.mpr fun f hf => (h f hf).2
  rw [insertField, if_neg hnew, htake, hdrop]

theorem mem_insertField {fields : List (Text × α)} {key : Text} {v : α} {f : Text × α}
    (h : f ∈ insertField fields key v) : f = (key, v) ∨ f ∈ fields := by
  unfold insertField at h
  split at h
  · obtain ⟨g, hg, rfl⟩ := List.mem_map.mp h
    split
    · exact .inl rfl
    · exact .inr hg
  · rcases List.mem_append.mp h with h | h
    · exact .inr ((List.takeWhile_sublist _).subset h)
    · rcases List.mem_cons.mp h with rfl | h
      · exact .inl rfl
      · exact .inr ((List.dropWhile_sublist _).subset h)

theorem inOrder_insertField {fields : List (Text × α)} (h : InOrder (fields.map (·.1))) (key : Text) (v : α) :
    InOrder ((insertField fields key v).map (·.1)) := by
  unfold insertField
  split
  · have hsame : (fields.map fun f => if f.1 = key then (key, v) else f).map (·.1) = fields.map (·.1) := by
      rw [List.map_map]
      refine List.map_congr_left fun f _ => ?_
      show (if f.1 = key then (key, v) else f).1 = f.1
      split
      · rename_i hf
        exact hf.symm
      · rfl
    rw [hsame]
    exact h
  · rename_i hnew
    have hne : ∀ f ∈ fields, f.1 ≠ key := by
      intro f hf heq
      exact hnew (List.any_eq_true.mpr ⟨f, hf, decide_eq_true heq⟩)
    have hsplit : fields.takeWhile (fun f => before f.1 key) ++ fields.dropWhile (fun f => before f.1 key) = fields :=
      List.takeWhile_append_dropWhile
    unfold InOrder at h ⊢
    rw [List.pairwise_map] at h ⊢
    rw [← hsplit, List.pairwise_append] at h
    obtain ⟨htake, hdrop, hcross⟩ := h
    -- the new name is before the first of those that are not before it, and so before the others
    have hafter : ∀ f ∈ fields.dropWhile (fun f => before f.1 key), before key f.1 = true := by
      cases hrest : fields.dropWhile (fun f => before f.1 key) with
      | nil =>
        intro f hf
        cases hf
      | cons g gs =>
        rw [hrest] at hdrop
        have hg : before g.1 key = false := by
          have hhead := List.head?_dropWhile_not (fun f : Text × α => before f.1 key) fields
          rw [hrest] at hhead
          simpa using hhead
        have hmem : g ∈ fields.dropWhile (fun f => before f.1 key) := by
          rw [hrest]
          exact .head gs
        have hgne : g.1 ≠ key := hne g ((List.dropWhile_sublist _).subset hmem)
        have hfirst := before_of_not hgne hg
        intro f hf
        rcases List.mem_cons.mp hf with rfl | hf
        · exact hfirst
        · exact before_trans hg hfirst ((List.pairwise_cons.mp hdrop).1 f hf).2
    rw [List.pairwise_append, List.pairwise_cons]
    refine ⟨htake, ⟨fun f hf => ⟨?_, hafter f hf⟩, hdrop⟩, fun f hf g hg => ?_⟩
    · exact (hne f ((List.dropWhile_sublist _).subset hf)).symm
    · rcases List.mem_cons.mp hg with rfl | hg
      · have hbefore : before f.1 key = true := 
          List.mem_takeWhile_imp (p := fun f : Text × α => before f.1 key) hf
        exact ⟨hne f ((List.takeWhile_sublist _).subset hf), hbefore⟩
      · exact hcross f hf g hg

end Insert

/-! ### Reading back -/

theorem allNamesFields_iff {ν : Type} {P : List Text → Prop} {fields : List (Text × Json ν)} :
    AllNamesFields P fields ↔ ∀ f ∈ fields, f.2.AllNames P := by
  induction fields with
  | nil => simp [AllNamesFields]
  | cons f fields ih => simp [AllNamesFields, ih]

mutual

/-- What `parse` gives is in order. -/
theorem Json.ordered_eval : ∀ t : Tree, t.eval.Ordered
  | .null | .bool _ | .num _ | .str _ => by
    rw [Json.eval]
    trivial
  | .arr l => by
    rw [Json.eval]
    exact ordered_evalList l
  | .obj fields => by
    rw [Json.eval]
    exact ordered_evalFields fields List.Pairwise.nil (by simp)

theorem ordered_evalList : ∀ l : List Tree, AllNamesList InOrder (evalList l)
  | [] => trivial
  | t :: l => ⟨t.ordered_eval, ordered_evalList l⟩

theorem ordered_evalFields : ∀ (fields : List (Text × Tree)) {acc : List (Text × Value)},
    InOrder (acc.map (·.1)) → (∀ f ∈ acc, f.2.Ordered) → (Json.obj (evalFields acc fields)).Ordered
  | [], acc, hnames, hvalues => ⟨hnames, allNamesFields_iff.mpr hvalues⟩
  | (key, t) :: fields, acc, hnames, hvalues => by
    rw [evalFields]
    refine ordered_evalFields fields (inOrder_insertField hnames key t.eval) fun f hf => ?_
    rcases mem_insertField hf with rfl | hf
    · exact t.ordered_eval
    · exact hvalues f hf

end

theorem treeFields_names (fields : List (Text × Value)) : (treeFields fields).map (·.1) = fields.map (·.1) := by
  induction fields with
  | nil => rfl
  | cons f fields ih => rw [treeFields, List.map_cons, List.map_cons, ih]

mutual

/-- The tree has the names of the value. -/
theorem Json.allNames_toTree {P : List Text → Prop} : ∀ {v : Value}, v.AllNames P → v.toTree.AllNames P
  | .null, _ | .bool _, _ | .str _, _ => by
    rw [Json.toTree]
    trivial
  | .num x, _ => by
    rw [Json.toTree]
    cases x <;> trivial
  | .arr l, h => by
    rw [Json.toTree]
    exact allNames_treeList l h
  | .obj fields, h => by
    rw [Json.toTree]
    exact ⟨by rw [treeFields_names]; exact h.1, allNames_treeFields fields h.2⟩

theorem allNames_treeList {P : List Text → Prop} : ∀ (l : List Value), AllNamesList P l → AllNamesList P (treeList l)
  | [], _ => trivial
  | v :: l, h => ⟨Json.allNames_toTree (v := v) h.1, allNames_treeList l h.2⟩

theorem allNames_treeFields {P : List Text → Prop} : ∀ (fields : List (Text × Value)),
    AllNamesFields P fields → AllNamesFields P (treeFields fields)
  | [], _ => trivial
  | (_, v) :: fields, h => ⟨Json.allNames_toTree (v := v) h.1, allNames_treeFields fields h.2⟩

end

mutual

theorem Json.allNames_imp {P Q : List Text → Prop} (hPQ : ∀ names, P names → Q names) :
    ∀ {t : Tree}, t.AllNames P → t.AllNames Q
  | .null, _ | .bool _, _ | .num _, _ | .str _, _ => trivial
  | .arr l, h => allNamesList_imp hPQ l h
  | .obj fields, h => ⟨hPQ _ h.1, allNamesFields_imp hPQ fields h.2⟩

theorem allNamesList_imp {P Q : List Text → Prop} (hPQ : ∀ names, P names → Q names) :
    ∀ (l : List Tree), AllNamesList P l → AllNamesList Q l
  | [], _ => trivial
  | t :: l, h => ⟨Json.allNames_imp hPQ (t := t) h.1, allNamesList_imp hPQ l h.2⟩

theorem allNamesFields_imp {P Q : List Text → Prop} (hPQ : ∀ names, P names → Q names) :
    ∀ (fields : List (Text × Tree)), AllNamesFields P fields → AllNamesFields Q fields
  | [], _ => trivial
  | (_, t) :: fields, h => ⟨Json.allNames_imp hPQ (t := t) h.1, allNamesFields_imp hPQ fields h.2⟩

end

/-- What is written of a value in order has no name twice. -/
theorem distinct_toTree {v : Value} (h : v.Ordered) : v.toTree.Distinct :=
  Json.allNames_imp (fun _ hnames => hnames.nodup) (Json.allNames_toTree h)

theorem eval_numberTree (x : Double) : (numberTree x).eval = .num x ↔ writable x = true := by
  cases x with
  | infinity neg =>
    simp only [numberTree, writable, Json.eval]
    have hne : (Json.null : Value) ≠ .num (.infinity neg) := nofun
    exact ⟨fun h => absurd h hne, nofun⟩
  | finite neg n hn =>
    simp only [numberTree, writable, Json.eval, Json.num.injEq]
    by_cases hzero : n = 0
    · subst hzero
      have hround : Decimal.round ⟨false, 0, 0⟩ = some 0 := by
        have hnum : Decimal.num ⟨false, 0, 0⟩ = 0 := by rw [Decimal.num, Nat.zero_mul, Nat.zero_mul]
        have hden : Decimal.den ⟨false, 0, 0⟩ = 1 := rfl
        have hexact := round_exact hn Nat.one_pos
        rw [Nat.zero_mul] at hexact
        rw [Decimal.round, hnum, hden, hexact]
      rw [if_pos rfl, Double.ofDecimal_finite hn hround, Double.finite.injEq]
      cases neg <;> simp
    · have hround := (literal_round neg (shortest n)).trans (shortest_reads hn)
      rw [if_neg hzero, Double.ofDecimal_finite hn hround, literal_neg]
      simp [hzero]

theorem evalFields_ordered : ∀ (fields : List (Text × Tree)) (acc : List (Text × Value)),
    InOrder (acc.map (·.1) ++ fields.map (·.1)) →
    evalFields acc fields = acc ++ fields.map fun f => (f.1, f.2.eval)
  | [], acc, _ => by
    rw [evalFields, List.map_nil, List.append_nil]
  | (key, t) :: fields, acc, h => by
    have hlast : ∀ f ∈ acc, f.1 ≠ key ∧ before f.1 key = true := by
      intro f hf
      rw [InOrder, List.pairwise_append] at h
      exact h.2.2 f.1 (List.mem_map_of_mem hf) key (.head _)
    have hnext : InOrder ((acc ++ [(key, t.eval)]).map (·.1) ++ fields.map (·.1)) := by
      rw [List.map_append, List.map_singleton, List.append_assoc, List.singleton_append]
      exact h
    rw [evalFields, insertField_last hlast, evalFields_ordered fields _ hnext, List.append_assoc]
    rfl

mutual

/-- A value in order is read back from its tree exactly when its numbers can be written. -/
theorem eval_toTree : ∀ {v : Value}, v.Ordered → (v.toTree.eval = v ↔ v.writable = true)
  | .null, _ => by
    rw [Json.toTree, Json.eval]
    exact ⟨fun _ => rfl, fun _ => rfl⟩
  | .bool b, _ => by
    rw [Json.toTree, Json.eval]
    exact ⟨fun _ => rfl, fun _ => rfl⟩
  | .str s, _ => by
    rw [Json.toTree, Json.eval]
    exact ⟨fun _ => rfl, fun _ => rfl⟩
  | .num x, _ => by
    rw [Json.toTree]
    exact eval_numberTree x
  | .arr l, h => by
    rw [Json.toTree, Json.eval, Json.arr.injEq]
    exact eval_treeList l h
  | .obj fields, h => by
    have hnames : InOrder (([] : List (Text × Value)).map (·.1) ++ (treeFields fields).map (·.1)) := by
      rw [treeFields_names]
      exact h.1
    rw [Json.toTree, Json.eval, Json.obj.injEq, evalFields_ordered _ _ hnames, List.nil_append]
    exact eval_treeFields fields h.2

theorem eval_treeList : ∀ (l : List Value), AllNamesList InOrder l →
    (evalList (treeList l) = l ↔ allNumbersList writable l = true)
  | [], _ => ⟨fun _ => rfl, fun _ => rfl⟩
  | v :: l, h => by
    rw [treeList, evalList, List.cons.injEq, eval_toTree (v := v) h.1, eval_treeList l h.2]
    exact (Bool.and_eq_true ..).to_iff.symm

theorem eval_treeFields : ∀ (fields : List (Text × Value)), AllNamesFields InOrder fields →
    ((treeFields fields).map (fun f => (f.1, f.2.eval)) = fields ↔ allNumbersFields writable fields = true)
  | [], _ => ⟨fun _ => rfl, fun _ => rfl⟩
  | (key, v) :: fields, h => by
    have hfirst := eval_toTree (v := v) h.1
    have hrest := eval_treeFields fields h.2
    rw [treeFields, List.map_cons, List.cons.injEq, hrest, Prod.mk.injEq, and_iff_right rfl, hfirst]
    exact (Bool.and_eq_true ..).to_iff.symm

end

/-- **When `JSON.stringify` is undone by `JSON.parse`.** A value that `JSON.parse` gave is read back from
what `JSON.stringify` writes exactly when no number in it is infinite or negative zero. -/
theorem parse_stringify {text : Text} {v : Value} (h : parse text = some v) :
    parse (stringify v) = some v ↔ v.writable = true := by
  obtain ⟨t, -, rfl⟩ := Option.map_eq_some_iff.mp h
  rw [parse, read_stringify, Option.map_some, Option.some.injEq]
  exact eval_toTree t.ordered_eval

end JsonText
