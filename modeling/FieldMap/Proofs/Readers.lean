import FieldMap.Bytes
import Mathlib.Data.List.Forall2

/-!
# Outcomes of readers

Every reader of this library gives a value or an error, and a larger
reader is put together from smaller ones. To know that the larger one
succeeds is to know that every part of it does, and these are the lemmas
that take it apart. A list that is read entry by entry is read if each
entry is, and the results correspond to the entries (`mapM_eq_ok`).

The smallest readers of bytecode are `window` and `byteOf`. A window that
can be read cuts the stream in three (`append_of_window`), and it is found
again wherever the same bytes stand at the same place (`window_append`).
-/

variable {ε ε' α β γ : Type}

namespace Except

@[simp] theorem ok_bind (a : α) (f : α → Except ε β) : (Except.ok a >>= f) = f a := rfl

@[simp] theorem error_bind (e : ε) (f : α → Except ε β) :
    (Except.error e >>= f) = Except.error e := rfl

@[simp] theorem pure_eq_ok (a : α) : (pure a : Except ε α) = Except.ok a := rfl

/-- A sequence succeeds if its first step does and the rest does on what
that gives. -/
theorem bind_eq_ok {x : Except ε α} {f : α → Except ε β} {b : β} :
    (x >>= f) = .ok b ↔ ∃ a, x = .ok a ∧ f a = .ok b := by
  cases x with
  | error e => simp
  | ok a => simp

/-- A sequence fails where its first step does, or where the rest does. -/
theorem bind_eq_error {x : Except ε α} {f : α → Except ε β} {e : ε} :
    (x >>= f) = .error e ↔ x = .error e ∨ ∃ a, x = .ok a ∧ f a = .error e := by
  cases x with
  | error e => simp
  | ok a => simp

/-- A last step that only builds the result does not fail. -/
theorem bind_pure_eq_error {x : Except ε α} {f : α → β} {e : ε} :
    (x >>= fun a => pure (f a)) = .error e ↔ x = .error e := by
  cases x with
  | error e => simp
  | ok a => simp

theorem map_eq_ok {x : Except ε α} {f : α → β} {b : β} :
    x.map f = .ok b ↔ ∃ a, x = .ok a ∧ f a = b := by
  cases x with
  | error e => simp [Except.map]
  | ok a => simp [Except.map]

theorem map_eq_error {x : Except ε α} {f : α → β} {e : ε} :
    x.map f = .error e ↔ x = .error e := by
  cases x with
  | error e => simp [Except.map]
  | ok a => simp [Except.map]

theorem mapError_eq_ok {x : Except ε α} {f : ε → ε'} {a : α} :
    x.mapError f = .ok a ↔ x = .ok a := by
  cases x with
  | error e => simp [Except.mapError]
  | ok a => simp [Except.mapError]

theorem exists_eq_ok_iff {x : Except ε α} : (∃ a, x = .ok a) ↔ ∀ e, x ≠ .error e := by
  cases x with
  | error e => exact iff_of_false (fun ⟨_, h⟩ => nomatch h) (fun h => h e rfl)
  | ok a => exact iff_of_true ⟨a, rfl⟩ (fun _ h => nomatch h)

theorem isOk_iff {x : Except ε α} : x.isOk = true ↔ ∃ a, x = .ok a := by
  cases x with
  | error e => exact iff_of_false Bool.false_ne_true (fun h => nomatch h)
  | ok a => exact iff_of_true rfl ⟨a, rfl⟩

end Except

namespace List

theorem map_eq_map_iff_forall₂ {f : α → γ} {g : β → γ} {as : List α} {bs : List β} :
    as.map f = bs.map g ↔ Forall₂ (fun a b => f a = g b) as bs := by
  rw [← forall₂_eq_eq_eq, forall₂_map_left_iff, forall₂_map_right_iff]

/-- **Reading a list entry by entry** succeeds with results that
correspond to the entries. -/
theorem mapM_eq_ok {f : α → Except ε β} {as : List α} {bs : List β} :
    as.mapM f = .ok bs ↔ Forall₂ (fun a b => f a = .ok b) as bs := by
  induction as generalizing bs with
  | nil => simp [eq_comm]
  | cons a as ih =>
    simp only [mapM_cons, Except.bind_eq_ok, ih, Except.pure_eq_ok, Except.ok.injEq,
      forall₂_cons_left_iff]
    constructor
    · rintro ⟨b, hb, bs, hbs, rfl⟩
      exact ⟨b, bs, hb, hbs, rfl⟩
    · rintro ⟨b, bs, hb, hbs, rfl⟩
      exact ⟨b, hb, bs, hbs, rfl⟩

/-- Every result was read from an entry. -/
theorem exists_of_mapM_eq_ok {f : α → Except ε β} {as : List α} {bs : List β}
    (h : as.mapM f = .ok bs) : ∀ b ∈ bs, ∃ a ∈ as, f a = .ok b := by
  induction mapM_eq_ok.mp h with
  | nil => exact fun _ hmem => absurd hmem not_mem_nil
  | cons hread hrest ih =>
    refine forall_mem_cons.mpr ⟨⟨_, mem_cons_self, hread⟩, fun b hb => ?_⟩
    obtain ⟨a, ha, hab⟩ := ih (mapM_eq_ok.mpr hrest) b hb
    exact ⟨a, mem_cons_of_mem _ ha, hab⟩

/-- Every entry was read. -/
theorem exists_of_mem_of_mapM_eq_ok {f : α → Except ε β} {as : List α} {bs : List β}
    (h : as.mapM f = .ok bs) : ∀ a ∈ as, ∃ b, f a = .ok b := by
  induction mapM_eq_ok.mp h with
  | nil => exact fun _ hmem => absurd hmem not_mem_nil
  | cons hread hrest ih => exact forall_mem_cons.mpr ⟨⟨_, hread⟩, ih (mapM_eq_ok.mpr hrest)⟩

/-- What a result takes over from its entry, the list of results takes over from
the list of entries. -/
theorem map_of_mapM_eq_ok {f : α → Except ε β} {as : List α} {bs : List β} {g : α → γ} {k : β → γ}
    (h : as.mapM f = .ok bs) (hfg : ∀ a b, f a = .ok b → k b = g a) : bs.map k = as.map g := by
  induction mapM_eq_ok.mp h with
  | nil => rfl
  | cons hread hrest ih =>
    rw [map_cons, map_cons, hfg _ _ hread, ih (mapM_eq_ok.mpr hrest)]

/-- **Reading a list fails** at its first entry that cannot be read, with the error of
that entry. -/
theorem mapM_eq_error {f : α → Except ε β} {as : List α} {e : ε} :
    as.mapM f = .error e
      ↔ ∃ (i : Nat) (a : α), as[i]? = some a ∧ f a = .error e
        ∧ ∀ j < i, ∀ b, as[j]? = some b → ∃ c, f b = .ok c := by
  induction as with
  | nil => exact iff_of_false (fun h => nomatch h) (fun ⟨_, _, h, _⟩ => nomatch h)
  | cons a as ih =>
    rw [mapM_cons, Except.bind_eq_error]
    simp only [Except.bind_pure_eq_error, ih]
    constructor
    · rintro (h | ⟨c, hc, i, b, hb, h, hfront⟩)
      · exact ⟨0, a, rfl, h, fun j hj => absurd hj j.not_lt_zero⟩
      · refine ⟨i + 1, b, hb, h, fun j hj d hd => ?_⟩
        cases j with
        | zero => exact ⟨c, Option.some.inj hd ▸ hc⟩
        | succ j => exact hfront j (Nat.lt_of_succ_lt_succ hj) d hd
    · rintro ⟨i, b, hb, h, hfront⟩
      cases i with
      | zero => exact .inl (Option.some.inj hb ▸ h)
      | succ i =>
        obtain ⟨c, hc⟩ := hfront 0 i.succ_pos a rfl
        exact .inr ⟨c, hc, i, b, hb, h,
          fun j hj d hd => hfront (j + 1) (Nat.succ_lt_succ hj) d hd⟩

/-- Entries that can always be read do not matter to the error. -/
theorem mapM_filter_eq_error {f : α → Except ε β} {p : α → Bool}
    (hp : ∀ a, p a = false → ∃ b, f a = .ok b) {as : List α} {e : ε} :
    (as.filter p).mapM f = .error e ↔ as.mapM f = .error e := by
  induction as with
  | nil => rfl
  | cons a as ih =>
    rw [mapM_cons, Except.bind_eq_error]
    simp only [Except.bind_pure_eq_error]
    cases h : p a with
    | true =>
      rw [filter_cons_of_pos h, mapM_cons, Except.bind_eq_error]
      simp only [Except.bind_pure_eq_error, ih]
    | false =>
      obtain ⟨b, hb⟩ := hp a h
      rw [filter_cons_of_neg (by rw [h]; decide), ih, hb]
      simp

/-- A list that cannot be read has an entry that cannot. -/
theorem exists_of_mapM_eq_error {f : α → Except ε β} {as : List α} {e : ε}
    (h : as.mapM f = .error e) : ∃ a ∈ as, f a = .error e :=
  let ⟨_, a, ha, he, _⟩ := mapM_eq_error.mp h
  ⟨a, mem_of_getElem? ha, he⟩

end List

namespace FieldMap

variable {item : Item} {offset count : Nat} {stream part : List UInt8}

theorem window_eq_ok :
    window item offset count stream = .ok part
      ↔ (stream.drop offset).take count = part ∧ part.length = count := by
  unfold window
  dsimp only
  split
  · rename_i h
    rw [Except.ok.injEq]
    exact ⟨fun hp => ⟨hp, hp ▸ h⟩, fun hp => hp.1⟩
  · rename_i h
    exact iff_of_false (fun hp => nomatch hp) (fun hp => h (hp.1 ▸ hp.2))

/-- A window that is read cuts the stream in three. -/
theorem append_of_window (h : window item offset count stream = .ok part) (hcount : 0 < count) :
    ∃ front back, stream = front ++ (part ++ back) ∧ front.length = offset
      ∧ part.length = count := by
  obtain ⟨hpart, hlen⟩ := window_eq_ok.mp h
  refine ⟨stream.take offset, (stream.drop offset).drop count, ?_, ?_, hlen⟩
  · rw [← hpart, List.take_append_drop, List.take_append_drop]
  · have hle : part.length ≤ stream.length - offset := by
      rw [← hpart, List.length_take, List.length_drop]
      exact Nat.min_le_right _ _
    rw [List.length_take]
    omega

/-- The middle of three parts can be read. -/
theorem window_append (front back : List UInt8) (hoffset : front.length = offset)
    (hcount : part.length = count) :
    window item offset count (front ++ (part ++ back)) = .ok part := by
  subst hoffset hcount
  rw [window_eq_ok, List.drop_left, List.take_left]
  exact ⟨rfl, rfl⟩

/-- A stream is cut in three by what does not reach past its end. -/
theorem exists_append_of_le (h : offset + count ≤ stream.length) :
    ∃ front part back, stream = front ++ (part ++ back) ∧ front.length = offset
      ∧ part.length = count := by
  refine ⟨stream.take offset, (stream.drop offset).take count, (stream.drop offset).drop count,
    ?_, ?_, ?_⟩
  · rw [List.take_append_drop, List.take_append_drop]
  · rw [List.length_take]
    omega
  · rw [List.length_take, List.length_drop]
    omega

/-- A window that does not reach past the end can be read. -/
theorem exists_window_eq_ok (item : Item) (h : offset + count ≤ stream.length) :
    ∃ part, window item offset count stream = .ok part := by
  obtain ⟨front, part, back, rfl, hfront, hpart⟩ := exists_append_of_le h
  exact ⟨part, window_append front back hfront hpart⟩

/-- A window that cannot be read is cut short. -/
theorem window_eq_error {e : CodecError} (h : window item offset count stream = .error e) :
    e = .truncated item offset count (stream.length - offset) := by
  unfold window at h
  dsimp only at h
  split at h
  · exact nomatch h
  · exact (Except.error.inj h).symm

theorem byteOf_eq_error {e : CodecError} (h : byteOf item offset stream = .error e) :
    e = .truncated item offset 1 (stream.length - offset) := by
  unfold byteOf at h
  split at h
  · exact nomatch h
  · exact (Except.error.inj h).symm

theorem byteOf_eq_ok {b : UInt8} : byteOf item offset stream = .ok b ↔ stream[offset]? = some b := by
  unfold byteOf
  split
  · rename_i c h
    rw [h, Except.ok.injEq, Option.some.injEq]
  · rename_i h
    simp [h]

end FieldMap
