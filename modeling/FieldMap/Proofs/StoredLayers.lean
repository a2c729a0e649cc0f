import FieldMap.Proofs.Placement
import FieldMap.Proofs.TileRecords
import FieldMap.Proofs.TileSlots

/-!
# Layers of tiles are read back

`StoredLayers` describes the layers of a background from the side of whoever writes
them: the first layer, and for each of the other three either a zero byte or a byte
that announces it and the layer. A layer is its size, the number of its records, some
unknown bytes, the records, and two more bytes. Nothing in it is an offset.

The reader finds the layers that were described, and of each layer the place of its
records (`TileLayer.Matches`). It does so from any offset on and for any list of
optional layers, which is what the induction needs; where it stops is where the
description ends. The slots of what was read then hold the described records, in
order (`forall₂_slots`), and so the tiles are those of the records that are not free
(`tiles_eq`).
-/

namespace FieldMap

/-! ## How layers are stored -/

namespace StoredLayer

/-- The length of the bytes between the number of the records and the records. Two of
them are there in all layers. -/
def unknownLength (id : UInt8) : Nat := if id = 0 then 2 + 2 else if id = 1 then 16 + 2 else 10 + 2

end StoredLayer

/-- **A layer of tiles** as it is stored. -/
structure StoredLayer (id : UInt8) where
  width : UInt16
  height : UInt16
  unknown : Vector UInt8 (StoredLayer.unknownLength id)
  records : List (Vector UInt8 52)
  closing : Vector UInt8 2
  /-- The number of the records is stored in two bytes. -/
  length_lt : records.length < 65536

/-- **A layer that may be missing**, with the byte that announces it. -/
structure OptionalLayer where
  id : UInt8
  content? : Option ({ flag : UInt8 // flag ≠ 0 } × StoredLayer id)

/-- **The layers of a background** as they are stored. -/
structure StoredLayers where
  first : StoredLayer 0
  second? : Option ({ flag : UInt8 // flag ≠ 0 } × StoredLayer 1)
  third? : Option ({ flag : UInt8 // flag ≠ 0 } × StoredLayer 2)
  fourth? : Option ({ flag : UInt8 // flag ≠ 0 } × StoredLayer 3)

/-- The bytes of a layer. -/
def StoredLayer.bytes {id : UInt8} (layer : StoredLayer id) : List UInt8 :=
  toLittleEndian 2 layer.width.toNat ++ (toLittleEndian 2 layer.height.toNat ++
    (toLittleEndian 2 layer.records.length ++ (layer.unknown.toList ++
      (layer.records.flatMap Vector.toList ++ layer.closing.toList))))

namespace OptionalLayer

def bytes (optional : OptionalLayer) : List UInt8 :=
  match optional.content? with
  | none => [0]
  | some (flag, layer) => flag :: layer.bytes

/-- The layer, if it is there. -/
def layer? (optional : OptionalLayer) : Option ((id : UInt8) × StoredLayer id) :=
  optional.content?.map fun content => ⟨optional.id, content.2⟩

end OptionalLayer

namespace StoredLayers

/-- The layers behind the first. -/
def others (stored : StoredLayers) : List OptionalLayer :=
  [⟨1, stored.second?⟩, ⟨2, stored.third?⟩, ⟨3, stored.fourth?⟩]

/-- **The bytes of all layers.** -/
def bytes (stored : StoredLayers) : List UInt8 :=
  stored.first.bytes ++ stored.others.flatMap OptionalLayer.bytes

/-- The layers that are there. -/
def layers (stored : StoredLayers) : List ((id : UInt8) × StoredLayer id) :=
  ⟨0, stored.first⟩ :: stored.others.filterMap OptionalLayer.layer?

/-- **All records**, with their layers. -/
def records (stored : StoredLayers) : List (UInt8 × Vector UInt8 52) :=
  stored.layers.flatMap fun layer => layer.2.records.map fun record => (layer.1, record)

/-- **The tiles**: one for each record whose sorting number is not that of a free one. The
number of a tile is that of its record among all records. -/
def tiles (stored : StoredLayers) : List Tile :=
  stored.records.zipIdx.filterMap fun ((layer, record), id) =>
    if Bytes.wordAt record.toArray 22 = 0xFFFF then none
    else some (Tile.readAt record.toArray 0 (UInt16.ofNat id) layer)

end StoredLayers

/-! ## What is read of a layer -/

/-- **A layer that was read matches one that is stored** if it says what that does, and its
records stand where they are looked for. -/
structure TileLayer.Matches (data : Bytes) (layer : TileLayer)
    (stored : (id : UInt8) × StoredLayer id) : Prop where
  id_eq : layer.id = stored.1
  width_eq : layer.width = stored.2.width.toNat
  height_eq : layer.height = stored.2.height.toNat
  tileCount_eq : layer.tileCount = stored.2.records.length
  holdsAt : data.HoldsAt layer.recordsOffset (stored.2.records.flatMap Vector.toList)

namespace TileLayer

variable {data : Bytes} {id : UInt8} {offset : Nat}

theorem headerLength_eq (id : UInt8) : headerLength id = 6 + StoredLayer.unknownLength id := by
  unfold headerLength StoredLayer.unknownLength
  split_ifs <;> rfl

theorem length_records (records : List (Vector UInt8 52)) :
    (records.flatMap Vector.toList).length = records.length * 52 :=
  Bytes.length_flatMap_of_forall fun _ _ => Vector.length_toList

theorem length_bytes (stored : StoredLayer id) :
    stored.bytes.length = headerLength id + stored.records.length * 52 + 2 := by
  unfold StoredLayer.bytes
  simp only [List.length_append, length_toLittleEndian, Vector.length_toList, length_records,
    headerLength_eq]
  omega

/-- **A layer that stands somewhere** is read there. -/
theorem readAt_of_holdsAt {stored : StoredLayer id} (h : data.HoldsAt offset stored.bytes) :
    ∃ layer, readAt data id offset = .ok layer ∧ layer.Matches data ⟨id, stored⟩
      ∧ layer.endOffset = offset + stored.bytes.length := by
  have hwidth : data.readWord .layerWidth offset = .ok stored.width.toNat :=
    h.left.readNumber stored.width.toNat_lt _
  have hheight : data.readWord .layerHeight (offset + 2) = .ok stored.height.toNat :=
    h.right.left.readNumber stored.height.toNat_lt _
  have hcount : data.readWord .tileCount (offset + 4) = .ok stored.records.length :=
    h.right.right.left.readNumber stored.length_lt _
  have hrecords : data.HoldsAt (offset + headerLength id) (stored.records.flatMap Vector.toList) := by
    have hunknown := h.right.right.behind (length_toLittleEndian ..)
    have hbehind := hunknown.behind Vector.length_toList
    rw [headerLength_eq, ← Nat.add_assoc]
    exact hbehind.left
  have hslice : data.slice .tileRecords (offset + headerLength id)
      (stored.records.length * Tile.recordLength) = .ok _ :=
    hrecords.slice (length_records _) _
  refine ⟨⟨id, stored.width.toNat, stored.height.toNat, stored.records.length,
    offset + headerLength id⟩, ?_, ⟨rfl, rfl, rfl, rfl, hrecords⟩, ?_⟩
  · unfold readAt
    rw [hwidth, Except.ok_bind, hheight, Except.ok_bind, hcount, Except.ok_bind]
    dsimp only
    rw [hslice, Except.ok_bind]
    rfl
  · rw [length_bytes]
    show offset + headerLength id + stored.records.length * 52 + 2 = _
    omega

/-- **Optional layers are read** from where they stand, and no further. The induction is
on the layers that may still follow. -/
theorem readOptional_of_holdsAt {optionals : List OptionalLayer}
    (h : data.HoldsAt offset (optionals.flatMap OptionalLayer.bytes)) :
    ∃ layers, readOptional data (optionals.map OptionalLayer.id) offset
        = .ok (layers, offset + (optionals.flatMap OptionalLayer.bytes).length)
      ∧ List.Forall₂ (Matches data) layers (optionals.filterMap OptionalLayer.layer?) := by
  induction optionals generalizing offset with
  | nil => exact ⟨[], rfl, .nil⟩
  | cons optional rest ih =>
    obtain ⟨id, content?⟩ := optional
    rw [List.flatMap_cons] at h ⊢
    rw [List.map_cons, readOptional]
    cases content? with
    | none =>
      obtain ⟨layers, hread, hmatches⟩ := ih h.right
      refine ⟨layers, ?_, hmatches⟩
      have habsent : (0 : UInt8).toNat = 0 := rfl
      rw [h.readByte _, Except.ok_bind, if_pos habsent, List.length_append, ← Nat.add_assoc]
      exact hread
    | some content =>
      obtain ⟨⟨flag, hflag⟩, stored⟩ := content
      obtain ⟨layer, hlayer, hmatch, hend⟩ := readAt_of_holdsAt h.left.tail
      obtain ⟨layers, hread, hmatches⟩ := ih h.right
      refine ⟨layer :: layers, ?_, .cons hmatch hmatches⟩
      have hpresent : flag.toNat ≠ 0 := fun hzero => hflag (UInt8.toNat_inj.mp hzero)
      have hstop : layer.endOffset
          = offset + (OptionalLayer.bytes ⟨id, some (⟨flag, hflag⟩, stored)⟩).length := by
        rw [hend]
        show _ = offset + (stored.bytes.length + 1)
        omega
      rw [h.readByte _, Except.ok_bind, if_neg hpresent, hlayer, Except.ok_bind, hstop, hread,
        Except.ok_bind, List.length_append, ← Nat.add_assoc]
      rfl

/-- **All layers are read.** -/
theorem readAll_of_holdsAt {stored : StoredLayers} (h : data.HoldsAt offset stored.bytes) :
    ∃ layers, readAll data offset = .ok (layers, offset + stored.bytes.length)
      ∧ List.Forall₂ (Matches data) layers stored.layers := by
  obtain ⟨first, hfirst, hmatch, hend⟩ := readAt_of_holdsAt h.left
  obtain ⟨layers, hread, hmatches⟩ := readOptional_of_holdsAt h.right
  refine ⟨first :: layers, ?_, .cons hmatch hmatches⟩
  rw [← hend] at hread
  unfold readAll
  rw [hfirst, Except.ok_bind]
  rw [StoredLayers.bytes, List.length_append, ← Nat.add_assoc, ← hend]
  exact Except.bind_eq_ok.mpr ⟨_, hread, rfl⟩

end TileLayer

/-! ## The tiles in the slots -/

/-- **A slot holds a record** of its layer. -/
structure TileSlot.Holds (data : Bytes) (slot : TileSlot) (entry : UInt8 × Vector UInt8 52) :
    Prop where
  layer_eq : slot.layer = entry.1
  holdsAt : data.HoldsAt slot.offset entry.2.toList

namespace TileSlot.Holds

variable {data : Bytes} {slot : TileSlot} {entry : UInt8 × Vector UInt8 52}

/-- A record is read in its slot as it is read alone. -/
theorem byteAt_eq (h : slot.Holds data entry) :
    ∀ o < Tile.recordLength,
      data.byteAt (slot.offset + o) = Bytes.byteAt entry.2.toArray (0 + o) := by
  intro o ho
  rw [Nat.zero_add]
  exact Bytes.HoldsAt.byteAt_eq h.holdsAt (ho.trans_eq entry.2.size_toArray.symm)

theorem isFree_iff (h : slot.Holds data entry) :
    slot.isFree data = true ↔ Bytes.wordAt entry.2.toArray 22 = 0xFFFF := by
  have hfree : slot.isFree data = isFree entry.2.toArray ⟨0, entry.1⟩ := isFree_congr h.byteAt_eq
  rw [hfree]
  exact beq_iff_eq

theorem readAt_eq (h : slot.Holds data entry) (id : UInt16) :
    Tile.readAt data slot.offset id slot.layer = Tile.readAt entry.2.toArray 0 id entry.1 := by
  rw [h.layer_eq]
  exact Tile.readAt_congr h.byteAt_eq id entry.1

end TileSlot.Holds

namespace TileLayer

variable {data : Bytes}

/-- **The slots of a layer hold its records**, in order. -/
theorem Matches.forall₂_slots {layer : TileLayer} {stored : (id : UInt8) × StoredLayer id}
    (h : layer.Matches data stored) :
    List.Forall₂ (TileSlot.Holds data) layer.slots
      (stored.2.records.map fun record => (stored.1, record)) := by
  have hlength : layer.slots.length = stored.2.records.length :=
    layer.length_slots.trans h.tileCount_eq
  refine List.forall₂_iff_get.mpr ⟨by rw [hlength, List.length_map], fun i hslot hrecord => ?_⟩
  rw [List.length_map] at hrecord
  have hat := h.holdsAt.entry (fun _ _ => Vector.length_toList) (List.getElem?_eq_getElem hrecord)
  unfold slots
  simp only [List.get_eq_getElem, List.getElem_map, List.getElem_range]
  exact ⟨h.id_eq, hat⟩

/-- **All slots hold all records.** -/
theorem forall₂_slots {layers : List TileLayer} {stored : StoredLayers}
    (h : List.Forall₂ (Matches data) layers stored.layers) :
    List.Forall₂ (TileSlot.Holds data) (layers.flatMap slots) stored.records :=
  List.rel_flatMap h fun _ _ hmatch => hmatch.forall₂_slots

end TileLayer

namespace TileLayout

variable {data : Bytes} {layout : TileLayout} {stored : StoredLayers}

/-- Slots give tiles as their records do. Slots are numbered from any number on. -/
theorem filterMap_zipIdx_eq {slots : List TileSlot} {records : List (UInt8 × Vector UInt8 52)}
    (h : List.Forall₂ (TileSlot.Holds data) slots records) (start : Nat) :
    ((slots.zipIdx start).filterMap fun (slot, id) =>
        if slot.isFree data then none
        else some (Tile.readAt data slot.offset (UInt16.ofNat id) slot.layer))
      = (records.zipIdx start).filterMap fun ((layer, record), id) =>
        if Bytes.wordAt record.toArray 22 = 0xFFFF then none
        else some (Tile.readAt record.toArray 0 (UInt16.ofNat id) layer) := by
  induction h generalizing start with
  | nil => rfl
  | cons hfirst _ ih =>
    simp only [List.zipIdx_cons, List.filterMap_cons, hfirst.isFree_iff, hfirst.readAt_eq,
      ih (start + 1)]

/-- **The tiles of a layout** are those of the records in its slots. -/
theorem tiles_eq (h : List.Forall₂ (TileLayer.Matches data) layout.layers stored.layers) :
    layout.tiles data = stored.tiles := filterMap_zipIdx_eq (TileLayer.forall₂_slots h) 0

/-- There are as many slots as records. -/
theorem slotCount_eq (h : List.Forall₂ (TileLayer.Matches data) layout.layers stored.layers) :
    layout.slotCount = stored.records.length := by
  rw [← length_slots]
  exact (TileLayer.forall₂_slots h).length_eq

end TileLayout

end FieldMap
