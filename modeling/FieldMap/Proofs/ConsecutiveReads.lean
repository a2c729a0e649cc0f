import FieldMap.Proofs.Placement

/-!
# Reads one behind the other

A reader of a fixed layout goes through its data from front to back, and each item starts
where the one in front of it ends. Whether it succeeds is then a matter of size alone: if
the data reach to the end of the last item, then every item is read, and otherwise the first
item that does not fit is cut off, and its error is the error of the whole.

`ReadsBetween start stop result outcome` says so of a reader that has got as far as `start`:
if the data reach to `stop`, its result is the given outcome. The smallest readers are of
this kind (`slice`, `readWord`), and two of them that meet can be put together (`bind`), so that
any number of them can. The outcome is a value in all these cases; at the end of the layout
it may be an error of another kind, for a reader may refuse what it has read.
-/

namespace FieldMap.Bytes

variable {α β : Type} {data : Bytes} {start mid stop offset count : Nat}

/-- **The error of an item that is cut off**, although it should end at some place or in
front of it. -/
def IsCutBefore (data : Bytes) (stop : Nat) (e : CodecError) : Prop :=
  ∃ item offset needed, e = .truncated item offset needed (data.size - offset)
    ∧ data.size < offset + needed ∧ offset + needed ≤ stop

theorem IsCutBefore.mono {e : CodecError} (h : data.IsCutBefore mid e) (hle : mid ≤ stop) :
    data.IsCutBefore stop e := by
  obtain ⟨item, offset, needed, he, hcut, hmid⟩ := h
  exact ⟨item, offset, needed, he, hcut, Nat.le_trans hmid hle⟩

theorem IsCutBefore.isTruncated {e : CodecError} (h : data.IsCutBefore stop e) : e.IsTruncated := by
  obtain ⟨item, offset, needed, he, -, -⟩ := h
  exact ⟨item, offset, needed, _, he⟩

/-- **A part of a layout is read**: data that reach to its end give the outcome, and data
that end in front of that, but not in front of its start, cut off one of its items. -/
structure ReadsBetween (data : Bytes) (start stop : Nat) (result outcome : Except CodecError α) :
    Prop where
  le : start ≤ stop
  eq : stop ≤ data.size → result = outcome
  cut : start ≤ data.size → data.size < stop → ∃ e, result = .error e ∧ data.IsCutBefore stop e

namespace ReadsBetween

/-- What reads nothing is its own outcome. -/
theorem refl (data : Bytes) (start : Nat) (result : Except CodecError α) :
    data.ReadsBetween start start result result :=
  ⟨Nat.le_refl _, fun _ => rfl, fun hle hlt => absurd hlt (Nat.not_lt.mpr hle)⟩

/-- **Two parts that meet** are read one behind the other. -/
theorem bind {result : Except CodecError α} {value : α} {rest : α → Except CodecError β}
    {outcome : Except CodecError β} (hfirst : data.ReadsBetween start mid result (.ok value))
    (hrest : data.ReadsBetween mid stop (rest value) outcome) :
    data.ReadsBetween start stop (result >>= rest) outcome := by
  refine ⟨Nat.le_trans hfirst.le hrest.le, fun hfits => ?_, fun hstart hcut => ?_⟩
  · rw [hfirst.eq (Nat.le_trans hrest.le hfits), Except.ok_bind, hrest.eq hfits]
  · rcases Nat.lt_or_ge data.size mid with hlt | hge
    · obtain ⟨e, herror, he⟩ := hfirst.cut hstart hlt
      exact ⟨e, by rw [herror, Except.error_bind], he.mono hrest.le⟩
    · rw [hfirst.eq hge, Except.ok_bind]
      exact hrest.cut hge hcut

theorem map {result : Except CodecError α} {value : α}
    (h : data.ReadsBetween start stop result (.ok value)) (f : α → β) :
    data.ReadsBetween start stop (result.map f) (.ok (f value)) := by
  refine ⟨h.le, fun hfits => by rw [h.eq hfits]; rfl, fun hstart hcut => ?_⟩
  obtain ⟨e, herror, he⟩ := h.cut hstart hcut
  exact ⟨e, by rw [herror]; rfl, he⟩

/-- The outcome matters only for data that reach to the end. -/
theorem congr {result outcome outcome' : Except CodecError α}
    (h : data.ReadsBetween start stop result outcome)
    (heq : stop ≤ data.size → outcome = outcome') :
    data.ReadsBetween start stop result outcome' :=
  ⟨h.le, fun hfits => (h.eq hfits).trans (heq hfits), h.cut⟩

end ReadsBetween

/-! ## The smallest readers -/

theorem readsBetween_slice (data : Bytes) (item : Item) (offset count : Nat) :
    data.ReadsBetween offset (offset + count) (data.slice item offset count)
      (.ok (data.extract offset (offset + count))) := by
  refine ⟨Nat.le_add_right .., fun hfits => slice_eq_ok.mpr ⟨hfits, rfl⟩, fun _ hcut => ?_⟩
  refine ⟨_, ?_, item, offset, count, rfl, hcut, Nat.le_refl _⟩
  unfold slice
  rw [if_neg (Nat.not_le.mpr hcut)]

theorem readsBetween_readNumber (data : Bytes) (item : Item) (offset count : Nat) :
    data.ReadsBetween offset (offset + count) (data.readNumber item offset count)
      (.ok (ofLittleEndian (data.extract offset (offset + count)).toList)) :=
  (data.readsBetween_slice item offset count).map fun part => ofLittleEndian part.toList

theorem readsBetween_readByte (data : Bytes) (item : Item) (offset : Nat) :
    data.ReadsBetween offset (offset + 1) (data.readByte item offset)
      (.ok (data.byteAt offset).toNat) := by
  refine (data.readsBetween_readNumber item offset 1).congr fun hfits => congrArg _ ?_
  rw [toList_extract hfits]
  rfl

theorem readsBetween_readWord (data : Bytes) (item : Item) (offset : Nat) :
    data.ReadsBetween offset (offset + 2) (data.readWord item offset)
      (.ok (data.wordAt offset).toNat) := by
  have hnumber := data.readsBetween_readNumber item offset 2
  exact hnumber.congr fun hfits => (hnumber.eq hfits).symm.trans (readWord_eq_ok.mpr ⟨hfits, rfl⟩)

end FieldMap.Bytes
