/-
# The last value of a repeated flag

In a command line the word after a flag is its value, and of a flag that is given again the last value counts.
`last` takes the words in pairs, as they stand next to each other, and keeps the last value that a flag comes before.
What counts as a value is a parameter: of the values of one flag it may read some only.

* `last_append`: of two parts the second counts first, where no flag at the end of one takes a value from the other.
* `Foreign.append`: parts that say nothing add up.
* `last_pairs`: the last value of pairs of a flag and a value.
-/
import Mathlib.Data.List.Basic

namespace LastFlag

variable {α β : Type*} (flag : α → Prop) [DecidablePred flag] (value : α → Option β)

/-- From the left, with the last value so far. -/
def go : List α → Option β → Option β
  | a :: b :: words, found => go (b :: words) (if flag a then (value b).or found else found)
  | _, found => found

def last (words : List α) : Option β := go flag value words none

variable {flag value}

theorem go_found (words : List α) (found : Option β) : go flag value words found = (last flag value words).or found := by
  induction words generalizing found with
  | nil => rfl
  | cons a words ih =>
    cases words with
    | nil => rfl
    | cons b words =>
      rw [last, go, go, ih, ih (if flag a then (value b).or none else none), Option.or_assoc]
      congr 1
      split
      · rw [Option.or_none]
      · rfl

theorem last_cons_cons (a b : α) (words : List α) : last flag value (a :: b :: words) =
    (last flag value (b :: words)).or (if flag a then value b else none) := by
  rw [last, go, go_found]
  split
  · rw [Option.or_none]
  · rfl

/-- **Of two parts the second counts first.** -/
theorem last_append {l m : List α} (h : ∀ a ∈ l.getLast?, flag a → ∀ b ∈ m.head?, value b = none) :
    last flag value (l ++ m) = (last flag value m).or (last flag value l) := by
  induction l with
  | nil => exact (Option.or_none).symm
  | cons a l ih =>
    cases l with
    | nil =>
      cases m with
      | nil => rfl
      | cons b m =>
        show last flag value (a :: b :: m) = (last flag value (b :: m)).or none
        rw [last_cons_cons]
        congr 1
        split
        · rename_i ha
          exact h a rfl ha b rfl
        · rfl
    | cons a' l =>
      have hrest := ih h
      rw [List.cons_append] at hrest
      rw [List.cons_append, List.cons_append, last_cons_cons, hrest, last_cons_cons, Option.or_assoc]

/-! ### Parts that say nothing -/

/-- No value is in the part, nor taken from it by a flag before. -/
structure Foreign (flag : α → Prop) [DecidablePred flag] (value : α → Option β) (words : List α) : Prop where
  head : ∀ a ∈ words.head?, value a = none
  silent : last flag value words = none

theorem last_append_foreign (l : List α) {m : List α} (h : Foreign flag value m) :
    last flag value (l ++ m) = last flag value l := by
  rw [last_append fun _ _ _ => h.head, h.silent, Option.none_or]

theorem Foreign.nil : Foreign flag value ([] : List α) := ⟨nofun, rfl⟩

theorem Foreign.append {l m : List α} (hl : Foreign flag value l) (hm : Foreign flag value m) :
    Foreign flag value (l ++ m) := by
  refine ⟨fun a ha => ?_, ?_⟩
  · cases l with
    | nil => exact hm.head a ha
    | cons b l => exact hl.head a ha
  · rw [last_append_foreign l hm, hl.silent]

theorem Foreign.of_value {words : List α} (h : ∀ a ∈ words, value a = none) : Foreign flag value words := by
  refine ⟨fun a ha => h a (List.mem_of_mem_head? ha), ?_⟩
  induction words with
  | nil => rfl
  | cons a words ih =>
    cases words with
    | nil => rfl
    | cons b words =>
      rw [last_cons_cons, ih fun c hc => h c (List.mem_cons_of_mem a hc), h b (by simp)]
      split <;> rfl

theorem Foreign.of_flag {words : List α} (hhead : ∀ a ∈ words.head?, value a = none) (h : ∀ a ∈ words, ¬ flag a) :
    Foreign flag value words := by
  refine ⟨hhead, ?_⟩
  clear hhead
  induction words with
  | nil => rfl
  | cons a words ih =>
    cases words with
    | nil => rfl
    | cons b words =>
      rw [last_cons_cons, ih fun c hc => h c (List.mem_cons_of_mem a hc), if_neg (h a List.mem_cons_self)]
      rfl

/-! ### Pairs -/

/-- The values, each after the flag. -/
def pairs (f : α) (values : List α) : List α := values.flatMap fun v => [f, v]

/-- **The last value of pairs.** -/
theorem last_pairs {f : α} (hf : flag f) {values : List α} (h : ∀ v ∈ values, ¬ flag v) :
    last flag value (pairs f values) = values.reverse.findSome? value := by
  induction values with
  | nil => rfl
  | cons v values ih =>
    have hhead : ∀ a ∈ [f, v].getLast?, flag a → ∀ b ∈ (pairs f values).head?, value b = none := by
      intro a ha hflag
      obtain rfl := Option.some.inj ha
      exact absurd hflag (h v List.mem_cons_self)
    have hone : last flag value [f, v] = value v := by
      rw [last_cons_cons, if_pos hf]
      exact Option.none_or
    show last flag value ([f, v] ++ pairs f values) = _
    rw [last_append hhead, ih fun w hw => h w (List.mem_cons_of_mem v hw), hone, List.reverse_cons,
      List.findSome?_append, List.findSome?_singleton]

end LastFlag
