import FieldMap.Proofs.LzsHistory

/-!
# Payloads that are cut short

Which items a payload has is settled from its front. Where an item begins, and of which
kind it is, depends on the bytes in front of it alone, so what is cut off a payload takes
away items at the end, and a part of a payload that is left has the first items of the
whole (`prefix_itemsFrom_append`). It does not matter where the cut is: in front of a byte of
flags, in front of a byte that was announced, or between the two bytes of a reference.

No item takes back what was put out before (`prefix_replay`). So the first items of a
payload unpack to the beginning of what all of them unpack to (`replay_mono`).

The length in front of a payload cuts it in the same way, since what stands behind it is
never looked at; a length that promises more bytes than there are is refused.
-/

namespace FieldMap.Lzs

/-! ## The first items -/

/-- **A part of a payload has the first items** of the whole. The cases are those in which
items are read: the part is at its end, a group begins, an item is a byte, a reference is
cut in the middle, or it is complete. -/
theorem prefix_itemsFrom_append (flags : List Bool) (part rest : List UInt8) :
    itemsFrom flags part <+: itemsFrom flags (part ++ rest) := by
  fun_induction itemsFrom flags part with
  | case1 flags => exact List.nil_prefix
  | case2 group part ih =>
    show _ <+: itemsFrom [] (group :: (part ++ rest))
    rw [itemsFrom]
    exact ih
  | case3 more b part ih =>
    show _ <+: .literal b :: itemsFrom more (part ++ rest)
    exact List.cons_prefix_cons.mpr ⟨rfl, ih⟩
  | case4 more low => exact List.nil_prefix
  | case5 more low high part ih =>
    show _ <+: .reference low high :: itemsFrom more (part ++ rest)
    exact List.cons_prefix_cons.mpr ⟨rfl, ih⟩

/-! ## What they unpack to -/

theorem prefix_copyBack (distance count : Nat) (out : List UInt8) :
    out <+: copyBack distance count out := by
  induction count generalizing out with
  | zero => exact List.prefix_rfl
  | succ count ih => exact (List.prefix_append out _).trans (ih _)

/-- **Items put out bytes behind others**, and take none back. -/
theorem prefix_replay (out : List UInt8) (items : List PayloadItem) : out <+: replay out items := by
  induction items generalizing out with
  | nil => exact List.prefix_rfl
  | cons item rest ih =>
    have hitem : out <+: item.replay out := by
      cases item with
      | literal b => exact List.prefix_append out [b]
      | reference low high => exact prefix_copyBack _ _ out
    exact hitem.trans (ih (item.replay out))

/-- The first items of a payload put out the first bytes. -/
theorem replay_mono {first all : List PayloadItem} (h : first <+: all) (out : List UInt8) :
    replay out first <+: replay out all := by
  obtain ⟨others, rfl⟩ := h
  have hsplit : replay out (first ++ others) = replay (replay out first) others :=
    List.foldl_append
  rw [hsplit]
  exact prefix_replay (replay out first) others

/-- **What is left of a payload that was cut short** unpacks to the beginning of what the
whole unpacks to, wherever the cut is, as long as a byte is left. A payload behind its
length unpacks to what it unpacks to without it, whatever follows; and a length that is
larger than what follows is refused. -/
theorem decompress_cut :
    (∀ part rest : List UInt8, part ≠ [] →
      ∃ out whole, decompressPayload part = .ok out ∧ decompressPayload (part ++ rest) = .ok whole
        ∧ out.toList <+: whole.toList)
      ∧ (∀ payload behind : List UInt8, payload.length < 2 ^ 32 →
        decompress (toLittleEndian 4 payload.length ++ payload ++ behind).toArray
          = decompressPayload payload)
      ∧ ∀ (declared : Nat) (present : List UInt8), declared < 2 ^ 32 → present.length < declared →
        decompress (toLittleEndian 4 declared ++ present).toArray
          = .error (.compression .oversizedHeader) := by
  refine ⟨fun part rest hne => ?_, fun payload behind hlength => ?_,
    fun declared present hdeclared hpresent => ?_⟩
  · have hwhole : part ++ rest ≠ [] := List.append_ne_nil_of_left_ne_nil hne rest
    exact ⟨_, _, decompressPayload_of_ne_nil hne, decompressPayload_of_ne_nil hwhole,
      replay_mono (prefix_itemsFrom_append [] part rest) []⟩
  · rw [List.append_assoc, decompress_declared hlength, List.take_left, List.length_append,
      if_neg (Nat.not_lt.mpr (Nat.le_add_right ..))]
  · rw [decompress_declared hdeclared, if_pos hpresent]

/-- A reference is cut between its two bytes, a payload is followed by another byte, and
nine bytes are promised where there are two. -/
theorem decompress_cut_reference :
    decompressPayload [0x03, 0x61, 0x62, 0xEE] = .ok #[0x61, 0x62]
      ∧ (∃ whole, decompressPayload [0x03, 0x61, 0x62, 0xEE, 0xF1] = .ok whole
        ∧ [0x61, 0x62] <+: whole.toList)
      ∧ decompress (toLittleEndian 4 4 ++ [0x03, 0x61, 0x62, 0xEE] ++ [0xF1]).toArray
        = .ok #[0x61, 0x62]
      ∧ decompress (toLittleEndian 4 9 ++ [0xFF, 0x61]).toArray
        = .error (.compression .oversizedHeader) := by
  have hne : [0x03, 0x61, 0x62, 0xEE] ≠ ([] : List UInt8) := by decide
  have hvalue : decompressPayload [0x03, 0x61, 0x62, 0xEE] = .ok #[0x61, 0x62] :=
    (decompressPayload_of_ne_nil hne).trans (congrArg Except.ok (by decide +kernel))
  obtain ⟨hcut, hbehind, hlarge⟩ := decompress_cut
  obtain ⟨out, whole, hout, hwhole, hfront⟩ := hcut [0x03, 0x61, 0x62, 0xEE] [0xF1] hne
  obtain rfl : #[0x61, 0x62] = out := Except.ok.inj (hvalue.symm.trans hout)
  refine ⟨hvalue, ⟨whole, hwhole, hfront⟩, ?_, hlarge 9 [0xFF, 0x61] (by decide) (by decide)⟩
  exact (hbehind [0x03, 0x61, 0x62, 0xEE] [0xF1] (by decide)).trans hvalue

end FieldMap.Lzs
