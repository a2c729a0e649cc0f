import FieldMap.Proofs.JoinedBytecode
import FieldMap.Proofs.JumpTargets

/-!
# Scripts with many labels

The labels of a script have numbers, and there are bounds on these: a word of 32 bits in
a script, and less than that in a listing. No bound is on the number of jumps. A *ladder*
is a script of jumps each of which leads to the instruction behind it, the last one to
the end. It has as many labels as jumps (`length_marked_rungs`), so that among the
ladders there is one with labels beyond any bound.
-/

namespace FieldMap.Script

/-- A jump to what stands behind it. -/
def rung : Instruction := .ordinary 0x10 [.ofKind .shortJump 1]

/-- **The bytecode of a ladder** with a number of rungs. -/
def ladder (count : Nat) : List UInt8 := (List.replicate count [0x10, 1]).flatten

/-- Each rung is decoded by itself. -/
theorem decode_ladder (count : Nat) : decode (ladder count) = .ok (List.replicate count rung) := by
  have hrung : decode [0x10, 1] = .ok [rung] := by decide +kernel
  have hrungs : List.Forall₂ (fun bytes script => decode bytes = .ok script)
      (List.replicate count [0x10, 1]) (List.replicate count [rung]) := by
    induction count with
    | zero => exact .nil
    | succ count ih => exact .cons hrung ih
  rw [ladder, decode_flatten hrungs, List.flatten_replicate_singleton]

theorem isLabel_rungs {count : Nat} :
    ∀ instruction ∈ List.replicate count rung, instruction.isLabel = false := fun _ hmem =>
  List.eq_of_mem_replicate hmem ▸ rfl

theorem startAt_rungs {count i : Nat} (hi : i ≤ count) :
    startAt (List.replicate count rung) i = 2 * i := by
  rw [startAt, List.take_replicate, Nat.min_eq_left hi, byteLength, List.map_replicate,
    List.sum_replicate, smul_eq_mul, Nat.mul_comm]
  rfl

theorem getElem?_placed_rungs {count i : Nat} (hi : i < count) :
    (placed (List.replicate count rung))[i]? = some ⟨rung, 2 * i, i⟩ := by
  rw [getElem?_placed, List.getElem?_replicate, if_pos hi, Option.map_some, startAt_rungs hi.le]

/-- A rung leads to the end of its two bytes. -/
theorem target?_rung (start : Nat) : rung.target? start = some ((start + 2 : Nat) : Int) := by
  have htarget : rung.target? start = some ((start : Int) + 1 + 1) := rfl
  rw [htarget, Int.add_assoc]
  rfl

theorem jumpsTo_rungs {count i : Nat} {target : Int} :
    JumpsTo (List.replicate count rung) i target ↔ i < count ∧ target = (2 * (i + 1) : Nat) := by
  rw [jumpsTo_iff]
  constructor
  · rintro ⟨place, hplace, htarget⟩
    have hi : i < count := by
      have hlt := (List.getElem?_eq_some_iff.mp hplace).1
      rwa [← List.length_map PlacedInstruction.instruction, map_instruction_placed,
        List.length_replicate] at hlt
    rw [getElem?_placed_rungs hi] at hplace
    rw [← Option.some.inj hplace, target?_rung] at htarget
    exact ⟨hi, (Option.some.inj htarget).symm⟩
  · rintro ⟨hi, rfl⟩
    exact ⟨_, getElem?_placed_rungs hi, target?_rung (2 * i)⟩

/-- Every jump of a ladder leads to a boundary. -/
theorem isBoundary_of_jumpsTo_rungs {count i : Nat} {target : Int}
    (h : JumpsTo (List.replicate count rung) i target) :
    IsBoundary (List.replicate count rung) target := by
  obtain ⟨hi, rfl⟩ := jumpsTo_rungs.mp h
  exact ⟨i + 1, by rw [List.length_replicate]; exact hi, by rw [startAt_rungs hi]⟩

/-- **Labels can be inserted into a ladder.** -/
theorem exists_insertLabels_rungs (count : Nat) :
    ∃ symbolic, insertLabels (List.replicate count rung) = .ok symbolic :=
  (exists_insertLabels_iff isLabel_rungs).mpr fun _ _ => isBoundary_of_jumpsTo_rungs

/-- The marks of a ladder are the ends of its rungs. -/
theorem mem_marked_rungs {count boundary : Nat} :
    boundary ∈ marked (List.replicate count rung)
      ↔ boundary ∈ (List.range count).map fun i => 2 * (i + 1) := by
  rw [marked, List.mem_filter, List.contains_iff_mem,
    mem_targets_iff_jumpsTo fun _ _ => isBoundary_of_jumpsTo_rungs]
  simp only [jumpsTo_rungs, List.mem_map, List.mem_range, Nat.cast_inj]
  constructor
  · rintro ⟨-, i, hi, rfl⟩
    exact ⟨i, hi, rfl⟩
  · rintro ⟨i, hi, rfl⟩
    refine ⟨?_, i, hi, rfl⟩
    rw [boundaries_eq_map isLabel_rungs]
    refine List.mem_map.mpr ⟨i + 1, List.mem_range.mpr ?_, startAt_rungs hi⟩
    rw [List.length_replicate]
    exact Nat.succ_lt_succ hi

/-- **A ladder has a label for each of its rungs.** -/
theorem length_marked_rungs (count : Nat) : (marked (List.replicate count rung)).length = count := by
  have hnodup : ((List.range count).map fun i => 2 * (i + 1)).Nodup :=
    List.nodup_range.map fun a b heq => by omega
  have hperm := (List.perm_ext_iff_of_nodup ((nodup_boundaries _).filter _) hnodup).mpr
    fun _ => mem_marked_rungs
  exact hperm.length_eq.trans (by rw [List.length_map, List.length_range])

end FieldMap.Script
