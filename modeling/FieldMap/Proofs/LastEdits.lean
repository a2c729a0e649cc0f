import Mathlib.Data.List.Induction
import Mathlib.Logic.Basic

/-!
# What was set last

A record with several places, of which each can be set on its own, is changed by any number
of edits one after the other. What a place holds in the end is what it was set to last, and
what it held at first if it was never set (`List.get_foldl_set`). All this takes of the
record is that setting a place changes this place and no other one.
-/

variable {σ κ ν : Type} [DecidableEq κ]

namespace List

/-- **The value to which a place was set last**, if it was set at all. -/
def lastSet? (edits : List (κ × ν)) (place : κ) : Option ν :=
  (edits.reverse.find? fun edit => edit.1 == place).map Prod.snd

theorem lastSet?_append_singleton (edits : List (κ × ν)) (edit : κ × ν) (place : κ) :
    (edits ++ [edit]).lastSet? place
      = if edit.1 = place then some edit.2 else edits.lastSet? place := by
  unfold lastSet?
  rw [reverse_append, reverse_singleton, singleton_append, find?_cons]
  by_cases h : edit.1 = place
  · rw [if_pos h, beq_iff_eq.mpr h]
    rfl
  · rw [if_neg h, beq_false_of_ne h]

/-- A place that no edit is about was not set. -/
theorem lastSet?_eq_none {edits : List (κ × ν)} {place : κ} :
    edits.lastSet? place = none ↔ ∀ edit ∈ edits, edit.1 ≠ place := by
  unfold lastSet?
  rw [Option.map_eq_none_iff, find?_eq_none]
  simp only [mem_reverse, beq_iff_eq, ne_eq]

/-- **A place holds what it was set to last**, and what it held before if it was not
set. -/
theorem get_foldl_set {get : σ → κ → ν} {set : σ → κ → ν → σ}
    (h : ∀ s place other value,
      get (set s place value) other = if other = place then value else get s other)
    (s : σ) (edits : List (κ × ν)) (place : κ) :
    get (edits.foldl (fun s edit => set s edit.1 edit.2) s) place
      = (edits.lastSet? place).getD (get s place) := by
  induction edits using List.reverseRecOn with
  | nil => rfl
  | append_singleton edits edit ih =>
    rw [foldl_append, foldl_cons, foldl_nil, h, ih, lastSet?_append_singleton]
    by_cases hplace : edit.1 = place
    · rw [if_pos hplace, if_pos hplace.symm]
      rfl
    · rw [if_neg hplace, if_neg (Ne.symm hplace)]

end List
