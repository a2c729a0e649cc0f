import FieldMap.Background.Store
import Mathlib.Data.List.Find
import Mathlib.Logic.Function.Basic

/-!
# A store of tiles, without its bytes

To whoever works with tiles, a background is a list of places, each of which belongs
to a layer, and a partial map from the numbers of these places to tiles. `TileMap`
is that and nothing else: it says what each operation on tiles has to answer, and
what it has to change, in terms of numbers and tiles alone, and which tiles are none
(`Tile.has`).

Operations are data (`TileOperation`), so that a sequence of them is a list, and
what comes of one is its answer together with the tile that was passed to it, as
its owner has it afterwards (`TileOutcome`). A store of bytes and a map perform the
same operations, and `TileOperation.performAll` performs a sequence on either.
-/

namespace FieldMap

/-- **Whether a tile has a fault** by itself: there are four layers and four ways of
blending, a tile has not the sorting number of a free record, and its texels are of one
byte or of two. -/
def Tile.has (tile : Tile) : TileFault → Bool
  | .layerOutOfRange => 3 < tile.layer
  | .reservedZ => tile.z = 0xFFFF
  | .badDepth => tile.depth ≠ 1 ∧ tile.depth ≠ 2
  | .blendOutOfRange => 3 < tile.blendType
  | .layerChange => false
  | .alreadyAllocated => false

/-- The faults that a tile can have by itself, the one to report first in front. -/
def TileFault.ofTiles : List TileFault :=
  [layerOutOfRange, reservedZ, badDepth, blendOutOfRange]

/-- **The fault that is found** is the first one that the tile has. -/
theorem Tile.fault?_eq_find? (tile : Tile) :
    tile.fault? = TileFault.ofTiles.find? tile.has := by
  have hcount : 3 < tile.layer ↔ layerCount ≤ tile.layer := by
    rw [UInt8.lt_iff_toNat_lt, UInt8.le_iff_toNat_le]
    show 3 < tile.layer.toNat ↔ 4 ≤ tile.layer.toNat
    omega
  have hlayer : tile.has .layerOutOfRange = decide (layerCount ≤ tile.layer) :=
    decide_eq_decide.mpr hcount
  have hz : tile.has .reservedZ = decide (tile.z = pending) := rfl
  have hdepth : tile.has .badDepth = decide (tile.depth ≠ 1 ∧ tile.depth ≠ 2) := rfl
  have hblend : tile.has .blendOutOfRange = decide (3 < tile.blendType) := rfl
  unfold fault? TileFault.ofTiles
  simp only [List.find?_cons, List.find?_nil, hlayer, hz, hdepth, hblend]
  split_ifs with hlayer hz hdepth hblend
  · rw [decide_eq_true hlayer]
  · rw [decide_eq_false hlayer, decide_eq_true hz]
  · rw [decide_eq_false hlayer, decide_eq_false hz, decide_eq_true hdepth]
  · rw [decide_eq_false hlayer, decide_eq_false hz, decide_eq_false hdepth, decide_eq_true hblend]
  · rw [decide_eq_false hlayer, decide_eq_false hz, decide_eq_false hdepth, decide_eq_false hblend]

/-- **A tile can be stored** if its layer, its sorting number, its depth and its
blending are those of a tile. -/
theorem Tile.fault?_eq_none {tile : Tile} :
    tile.fault? = none
      ↔ tile.layer ≤ 3 ∧ tile.z ≠ pending ∧ (tile.depth = 1 ∨ tile.depth = 2)
        ∧ tile.blendType ≤ 3 := by
  rw [fault?_eq_find?, List.find?_eq_none, TileFault.ofTiles]
  simp only [List.forall_mem_cons]
  simp [has, pending, Decidable.or_iff_not_imp_left]

/-- **An operation on the tiles** of a background. -/
inductive TileOperation where
  | tiles
  | freeSlots (layer : UInt8)
  | setTile (tile : Tile)
  | addTile (tile : Tile)

/-- What an operation gives if it succeeds. -/
inductive TileAnswer where
  | tiles (tiles : List Tile)
  | count (count : Nat)
  | done
  | id (id : UInt16)
deriving DecidableEq

/-- **What comes of an operation.** -/
structure TileOutcome where
  answer : Except CodecError TileAnswer
  /-- The tile that was passed, as its owner has it afterwards. -/
  passed? : Option Tile
deriving DecidableEq

namespace TileOperation

/-- The tile that is passed to an operation. -/
def tile? : TileOperation → Option Tile
  | setTile tile => some tile
  | addTile tile => some tile
  | _ => none

/-- **Performs a sequence of operations**, given what a single one does. -/
def performAll {σ : Type} (perform : σ → TileOperation → TileOutcome × σ) (state : σ) :
    List TileOperation → List TileOutcome × σ
  | [] => ([], state)
  | operation :: rest =>
    let (outcome, next) := perform state operation
    let (outcomes, last) := performAll perform next rest
    (outcome :: outcomes, last)

/-- **States that correspond** before a sequence of operations do so after it, and the
outcomes are the same, if that holds of each operation. -/
theorem performAll_of_perform {σ τ : Type} {perform : σ → TileOperation → TileOutcome × σ}
    {perform' : τ → TileOperation → TileOutcome × τ} {Holds : σ → τ → Prop}
    (hstep : ∀ state state' operation, Holds state state' →
      (perform state operation).1 = (perform' state' operation).1
        ∧ Holds (perform state operation).2 (perform' state' operation).2)
    {state : σ} {state' : τ} (h : Holds state state') (operations : List TileOperation) :
    (performAll perform state operations).1 = (performAll perform' state' operations).1
      ∧ Holds (performAll perform state operations).2
        (performAll perform' state' operations).2 := by
  induction operations generalizing state state' with
  | nil => exact ⟨rfl, h⟩
  | cons operation rest ih =>
    obtain ⟨houtcome, hnext⟩ := hstep state state' operation h
    obtain ⟨houtcomes, hlast⟩ := ih hnext
    exact ⟨congrArg₂ List.cons houtcome houtcomes, hlast⟩

end TileOperation

/-- **A partial map from the numbers of slots to tiles**, with the layers of the
slots. -/
structure TileMap where
  layers : List UInt8
  tile? : Nat → Option Tile

namespace TileMap

/-- The numbers of the slots, in ascending order. -/
def ids (map : TileMap) : List Nat := List.range map.layers.length

/-- The tiles, in the order of their numbers. -/
def tiles (map : TileMap) : List Tile := map.ids.filterMap map.tile?

/-- Whether a number is that of a slot in a layer, and none of the map. -/
def isFree (map : TileMap) (layer : UInt8) (id : Nat) : Bool :=
  map.layers[id]? == some layer && (map.tile? id).isNone

/-- How many slots of a layer have numbers that are not in the map. -/
def freeCount (map : TileMap) (layer : UInt8) : Nat := map.ids.countP (map.isFree layer)

/-- The least number of a slot in a layer that is not in the map. -/
def freeId? (map : TileMap) (layer : UInt8) : Option Nat := map.ids.find? (map.isFree layer)

/-- The map with a tile at its number. -/
def insert (map : TileMap) (tile : Tile) : TileMap :=
  { map with tile? := Function.update map.tile? tile.id.toNat (some tile) }

/-- Replaces the tile at the number of the given one. -/
def setTile (map : TileMap) (tile : Tile) : Except CodecError Unit × TileMap :=
  if map.tile? tile.id.toNat = none then (.error (.noSuchTile tile.id), map)
  else match TileFault.ofTiles.find? tile.has with
    | some fault => (.error (.invalidTile fault), map)
    | none =>
      if map.layers[tile.id.toNat]? ≠ some tile.layer then
        (.error (.invalidTile .layerChange), map)
      else (.ok (), map.insert tile)

/-- Gives a pending tile the least free number of its layer. -/
def allocate (map : TileMap) (tile : Tile) : Except CodecError UInt16 × Tile × TileMap :=
  if tile.id ≠ Tile.pending then (.error (.invalidTile .alreadyAllocated), tile, map)
  else match TileFault.ofTiles.find? tile.has with
    | some fault => (.error (.invalidTile fault), tile, map)
    | none =>
      match map.freeId? tile.layer with
      | none => (.error (.noFreeSlot tile.layer), tile, map)
      | some id =>
        let stored := { tile with id := UInt16.ofNat id }
        (.ok stored.id, stored, map.insert stored)

/-- **What an operation does to a map.** -/
def perform (map : TileMap) : TileOperation → TileOutcome × TileMap
  | .tiles => (⟨.ok (.tiles map.tiles), none⟩, map)
  | .freeSlots layer => (⟨.ok (.count (map.freeCount layer)), none⟩, map)
  | .setTile tile =>
    let (result, next) := map.setTile tile
    (⟨result.map fun _ => .done, some tile⟩, next)
  | .addTile tile =>
    let (result, stored, next) := map.allocate tile
    (⟨result.map .id, some stored⟩, next)

/-! ## What stays in a map -/

variable {map : TileMap} {id : Nat}

theorem isSome_insert (tile : Tile) (h : (map.tile? id).isSome) :
    ((map.insert tile).tile? id).isSome := by
  show (Function.update map.tile? tile.id.toNat (some tile) id).isSome
  by_cases hid : id = tile.id.toNat
  · rw [hid, Function.update_self]
    rfl
  · rwa [Function.update_of_ne hid]

/-- **No operation takes a number out of a map.** -/
theorem isSome_perform (operation : TileOperation) (h : (map.tile? id).isSome) :
    ((map.perform operation).2.tile? id).isSome := by
  cases operation with
  | tiles => exact h
  | freeSlots layer => exact h
  | setTile tile =>
    show ((map.setTile tile).2.tile? id).isSome
    unfold setTile
    split
    · exact h
    · split
      · exact h
      · split
        · exact h
        · exact isSome_insert tile h
  | addTile tile =>
    show ((map.allocate tile).2.2.tile? id).isSome
    unfold allocate
    split
    · exact h
    · split
      · exact h
      · split
        · exact h
        · exact isSome_insert _ h

/-- **The number that a pending tile gets** is free, and no smaller one is. -/
theorem freeId?_eq_some {layer : UInt8} :
    map.freeId? layer = some id ↔ map.isFree layer id ∧ ∀ other < id, !map.isFree layer other := by
  unfold freeId? ids
  rw [List.find?_range_eq_some]
  refine and_congr_right (fun hfree => and_iff_right (List.mem_range.mpr ?_))
  by_contra hout
  unfold isFree at hfree
  rw [List.getElem?_eq_none (Nat.not_lt.mp hout)] at hfree
  exact nomatch hfree

end TileMap

end FieldMap
