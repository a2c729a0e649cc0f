import FieldMap.Proofs.StoredBackground
import FieldMap.Proofs.TileRecords

/-!
# The texels of a page are its data

The reader of texture pages and the access to a texel each have their own idea of a page.
The reader takes a depth of one or two bytes, and from it tells how many bytes the page has.
The access computes from the column, the row and the depth where the bytes of a texel are.
The two agree: a page that was read is full (`isFull_of_readPages`), and on a full page each
texel in the square is there, and is the number in the bytes that it has for itself
(`IsFull.texel?_eq`).

So the texels are the data in another form. Written one behind the other, row by row, they
are the data again (`IsFull.flatMap_texels`), and a byte of the data belongs to one of them
and to no other: whoever changes the byte changes this texel and leaves all others as they
were (`IsFull.texel?_setByte_ne_iff`).
-/

/-- **A table row by row** lists what stands under the numbers of its places. The induction is
on the rows. -/
theorem List.flatMap_range_mul {α : Type} (rows width : Nat) (f : Nat → List α) :
    ((List.range rows).flatMap fun y => (List.range width).flatMap fun x => f (y * width + x))
      = (List.range (rows * width)).flatMap f := by
  induction rows with
  | zero => rw [Nat.zero_mul]; rfl
  | succ rows ih =>
    rw [List.range_succ, List.flatMap_append, ih, Nat.succ_mul, List.range_add,
      List.flatMap_append, List.flatMap_map, List.flatMap_singleton]

namespace FieldMap

-- powers of numbers are those of the core library, whatever else is imported
attribute [local instance (high)] instPowNat

/-- Bytes of one length that make the same number are the same. -/
theorem ofLittleEndian_inj {a b : List UInt8} (hlength : a.length = b.length) :
    ofLittleEndian a = ofLittleEndian b ↔ a = b := by
  refine ⟨fun h => ?_, congrArg ofLittleEndian⟩
  rw [← toLittleEndian_ofLittleEndian a, h, hlength, toLittleEndian_ofLittleEndian]

namespace TexturePage

variable {page : TexturePage} {x y i : Nat} {b : UInt8}

/-! ## Where texels are -/

/-- Where the bytes of a texel start. -/
def texelOffset (page : TexturePage) (x y : Nat) : Nat := (y * side + x) * page.depth

/-- **The bytes of a texel**, low byte first. -/
def texelBytes (page : TexturePage) (x y : Nat) : List UInt8 :=
  (List.range page.depth).map fun k => page.data.byteAt (page.texelOffset x y + k)

/-- **A page with a byte replaced.** -/
def setByte (page : TexturePage) (i : Nat) (b : UInt8) : TexturePage :=
  { page with data := page.data.setIfInBounds i b }

/-- **A page that has the data for its texels** and no more. -/
structure IsFull (page : TexturePage) : Prop where
  depth_eq : page.depth = 1 ∨ page.depth = 2
  size_eq : page.data.size = 256 * 256 * page.depth

theorem length_texelBytes (page : TexturePage) (x y : Nat) :
    (page.texelBytes x y).length = page.depth := by
  unfold texelBytes
  rw [List.length_map, List.length_range]

/-- **Pages that are read are full**, and there are as many places as were asked for. The
induction is on the places that are still to be read. -/
theorem isFull_of_readPages {data : Bytes} {count offset : Nat}
    {pages : List (Option TexturePage)} (h : readPages data count offset = .ok pages) :
    pages.length = count ∧ ∀ page, some page ∈ pages → page.IsFull := by
  induction count generalizing offset pages with
  | zero =>
    obtain rfl := Except.ok.inj h
    exact ⟨rfl, fun _ hmem => absurd hmem List.not_mem_nil⟩
  | succ count ih =>
    rw [readPages] at h
    obtain ⟨flag, -, h⟩ := Except.bind_eq_ok.mp h
    split_ifs at h with habsent
    · obtain ⟨rest, hrest, h⟩ := Except.bind_eq_ok.mp h
      obtain rfl := Except.ok.inj h
      obtain ⟨hlength, hfull⟩ := ih hrest
      refine ⟨congrArg (· + 1) hlength, fun page hmem => ?_⟩
      exact hfull page ((List.mem_cons.mp hmem).resolve_left (Option.some_ne_none page))
    · obtain ⟨depth, -, h⟩ := Except.bind_eq_ok.mp h
      split_ifs at h with hdepth
      obtain ⟨texels, htexels, h⟩ := Except.bind_eq_ok.mp h
      obtain ⟨rest, hrest, h⟩ := Except.bind_eq_ok.mp h
      obtain rfl := Except.ok.inj h
      obtain ⟨hfits, rfl⟩ := Bytes.slice_eq_ok.mp htexels
      obtain ⟨hlength, hfull⟩ := ih hrest
      refine ⟨congrArg (· + 1) hlength, fun page hmem => ?_⟩
      rcases List.mem_cons.mp hmem with heq | hrest
      · obtain rfl := Option.some.inj heq
        refine ⟨by show depth = 1 ∨ depth = 2; omega, ?_⟩
        show (data.extract _ _).size = side * side * depth
        rw [Array.size_extract, Nat.min_eq_left hfits]
        omega
      · exact hfull page hrest

theorem isFull_of_readAll {data : Bytes} {offset : Nat} {pages : List (Option TexturePage)}
    (h : readAll data offset = .ok pages) :
    pages.length = 42 ∧ ∀ page, some page ∈ pages → page.IsFull := by
  unfold readAll at h
  split_ifs at h
  exact isFull_of_readPages h

namespace IsFull

variable (h : page.IsFull)

include h

/-- The texels of the square lie in the data. -/
theorem texelOffset_add_le (hx : x < 256) (hy : y < 256) :
    page.texelOffset x y + page.depth ≤ page.data.size := by
  have hnumber : y * 256 + x + 1 ≤ 256 * 256 := by omega
  have hbytes := Nat.mul_le_mul_right page.depth hnumber
  rw [Nat.succ_mul] at hbytes
  rw [h.size_eq]
  exact hbytes

/-- **A byte belongs to one texel** of the square. -/
theorem texelOffset_covers_iff (hx : x < 256) :
    page.texelOffset x y ≤ i ∧ i < page.texelOffset x y + page.depth
      ↔ x = i / page.depth % 256 ∧ y = i / page.depth / 256 := by
  unfold texelOffset side
  rcases h.depth_eq with hdepth | hdepth
  · rw [hdepth]
    omega
  · rw [hdepth]
    omega

/-- **A texel is the number in its bytes**, and there are texels in the square only. -/
theorem texel?_eq : page.texel? x y
    = if x < 256 ∧ y < 256 then some (ofLittleEndian (page.texelBytes x y)) else none := by
  unfold texel?
  dsimp only
  by_cases hin : x < 256 ∧ y < 256
  · have hle := h.texelOffset_add_le hin.1 hin.2
    have hsquare : ¬(side ≤ x ∨ side ≤ y) := by
      unfold side
      omega
    rw [if_pos hin, if_neg hsquare]
    change (if page.depth = 1 then page.data[page.texelOffset x y]?.map UInt8.toNat else
      if page.texelOffset x y + 2 ≤ page.data.size then
        some (page.data.wordAt (page.texelOffset x y)).toNat else none) = _
    unfold texelBytes
    -- a single byte is read as it is, and two bytes are read as a word
    rcases h.depth_eq with hdepth | hdepth
    · rw [hdepth] at hle
      rw [if_pos hdepth, hdepth, Array.getElem?_eq_getElem hle, ← Bytes.byteAt_eq_getElem hle]
      rfl
    · rw [hdepth] at hle
      rw [if_neg (hdepth.symm ▸ by decide), if_pos hle, hdepth, Bytes.toNat_wordAt]
      rfl
  · have hsquare : side ≤ x ∨ side ≤ y := by
      unfold side
      omega
    rw [if_neg hin, if_pos hsquare]

/-! ## The texels as the data in another form -/

/-- **The texels row by row**, each in its bytes, are the data. -/
theorem flatMap_texels :
    ((List.range 256).flatMap fun y => (List.range 256).flatMap fun x =>
        (page.texel? x y).toList.flatMap (toLittleEndian page.depth)) = page.data.toList := by
  have htexel : ∀ y ∈ List.range 256, ∀ x ∈ List.range 256,
      (page.texel? x y).toList.flatMap (toLittleEndian page.depth) = page.texelBytes x y := by
    intro y hy x hx
    rw [h.texel?_eq, if_pos ⟨List.mem_range.mp hx, List.mem_range.mp hy⟩, Option.toList_some,
      List.flatMap_singleton]
    have hbytes := toLittleEndian_ofLittleEndian (page.texelBytes x y)
    rwa [length_texelBytes] at hbytes
  -- the bytes of a texel are a row once more, in the table of all texels
  have hrows : ((List.range 256).flatMap fun y => (List.range 256).flatMap fun x =>
      page.texelBytes x y) = (List.range (256 * 256)).flatMap fun n =>
        (List.range page.depth).flatMap fun k => [page.data.byteAt (n * page.depth + k)] := by
    rw [← List.flatMap_range_mul 256 256]
    refine List.flatMap_congr fun y _ => List.flatMap_congr fun x _ => ?_
    exact List.map_eq_flatMap
  calc
    _ = (List.range 256).flatMap fun y => (List.range 256).flatMap fun x => page.texelBytes x y :=
        List.flatMap_congr fun y hy => List.flatMap_congr fun x hx => htexel y hy x hx
    _ = (List.range page.data.size).flatMap fun i => [page.data.byteAt i] := by
        rw [hrows, h.size_eq]
        exact List.flatMap_range_mul _ _ fun i => [page.data.byteAt i]
    _ = page.data.toList := by
        rw [← List.map_eq_flatMap, ← Bytes.toList_eq_map_byteAt]

/-- A texel is a number of as many bytes as the depth says. -/
theorem texel?_lt {texel : Nat} (htexel : page.texel? x y = some texel) :
    texel < 256 ^ page.depth := by
  rw [h.texel?_eq] at htexel
  split_ifs at htexel
  obtain rfl := Option.some.inj htexel
  exact Nat.lt_of_lt_of_eq (ofLittleEndian_lt _) (congrArg (256 ^ ·) (page.length_texelBytes x y))

/-! ## What a byte of the data does -/

theorem setByte (i : Nat) (b : UInt8) : (page.setByte i b).IsFull :=
  ⟨h.depth_eq, (Array.size_setIfInBounds ..).trans h.size_eq⟩

/-- **A byte that is changed** changes the bytes of its texel and of no other. -/
theorem texelBytes_setByte_eq_iff (hb : page.data.byteAt i ≠ b) (hi : i < page.data.size)
    (hx : x < 256) :
    (page.setByte i b).texelBytes x y = page.texelBytes x y
      ↔ ¬(x = i / page.depth % 256 ∧ y = i / page.depth / 256) := by
  rw [← h.texelOffset_covers_iff hx]
  unfold texelBytes
  constructor
  · rintro heq ⟨hle, hlt⟩
    have hbyte := List.map_inj_left.mp heq (i - page.texelOffset x y) (List.mem_range.mpr (by
      show _ < page.depth
      omega))
    change Bytes.byteAt (page.data.setIfInBounds i b) (page.texelOffset x y + _) = _ at hbyte
    rw [Nat.add_sub_cancel' hle, Bytes.byteAt_setIfInBounds_self hi] at hbyte
    exact hb hbyte.symm
  · intro hout
    refine List.map_congr_left fun k hk => Bytes.byteAt_setIfInBounds_of_ne ?_ b
    have hk := List.mem_range.mp hk
    change k < page.depth at hk
    show i ≠ page.texelOffset x y + k
    omega

/-- **A byte that is changed** changes one texel of all. -/
theorem texel?_setByte_ne_iff (hb : page.data[i]? ≠ some b) (hi : i < page.data.size) :
    (page.setByte i b).texel? x y ≠ page.texel? x y
      ↔ x = i / page.depth % 256 ∧ y = i / page.depth / 256 := by
  have hb : page.data.byteAt i ≠ b := fun heq => hb <| by
    rw [Array.getElem?_eq_getElem hi, ← Bytes.byteAt_eq_getElem hi, heq]
  have hnumber : i / page.depth < 256 * 256 := by
    rw [h.size_eq, Nat.mul_comm] at hi
    exact Nat.div_lt_of_lt_mul hi
  rw [(h.setByte i b).texel?_eq, h.texel?_eq]
  by_cases hin : x < 256 ∧ y < 256
  · have hlength : ((page.setByte i b).texelBytes x y).length = (page.texelBytes x y).length :=
      ((page.setByte i b).length_texelBytes x y).trans (page.length_texelBytes x y).symm
    rw [if_pos hin, if_pos hin, Ne, Option.some.injEq, ofLittleEndian_inj hlength,
      h.texelBytes_setByte_eq_iff hb hi hin.1, not_not]
  · rw [if_neg hin, if_neg hin]
    refine iff_of_false (fun hne => hne rfl) fun hplace => hin ?_
    omega

end IsFull

end TexturePage

namespace BackgroundStore

/-- **The texels of a page cover it exactly.** Take any background that can be read. It has 42
places for pages, and on each page that is there a texel is found in every column and row of
the square, and nowhere else. The texels, written row by row in as many bytes as the depth
says, are the data of the page. So each byte of the data belongs to one texel and no two
texels share a byte: if a byte is replaced by another one, then the texel in one place
changes and all others stay. -/
theorem texels_cover {store : BackgroundStore} {paletteData : Bytes} {background : Background}
    (h : (store.decode paletteData).1 = .ok background) :
    background.pages.length = 42
      ∧ ∀ page : TexturePage, some page ∈ background.pages →
        (∀ x y, (page.texel? x y).isSome ↔ x < 256 ∧ y < 256)
          ∧ (∀ x y texel, page.texel? x y = some texel → texel < 256 ^ page.depth)
          ∧ ((List.range 256).flatMap fun y => (List.range 256).flatMap fun x =>
              (page.texel? x y).toList.flatMap (toLittleEndian page.depth)) = page.data.toList
          ∧ ∀ i b, i < page.data.size → page.data[i]? ≠ some b → ∀ x y,
            (page.setByte i b).texel? x y ≠ page.texel? x y
              ↔ x = i / page.depth % 256 ∧ y = i / page.depth / 256 := by
  obtain ⟨-, layout, -, -, -, hpages⟩ := decode_eq_ok.mp h
  obtain ⟨hlength, hall⟩ := TexturePage.isFull_of_readAll hpages
  refine ⟨hlength, fun page hmem => ?_⟩
  have hfull := hall page hmem
  refine ⟨fun x y => ?_, fun x y texel => hfull.texel?_lt, hfull.flatMap_texels,
    fun i b hi hb x y => hfull.texel?_setByte_ne_iff hb hi⟩
  rw [hfull.texel?_eq]
  split_ifs with hin
  · exact iff_of_true rfl hin
  · exact iff_of_false Bool.false_ne_true hin

/-- What is stored can be read, and its pages are found. -/
theorem exists_decode_pages (source : StoredBackground) (colors : StoredPalettes) :
    ∃ background, ((ofBytes source.bytes.toArray).decode colors.bytes.toArray).1 = .ok background
      ∧ background.pages = source.pages.toList.map (Option.map StoredPage.page) := by
  have hstored := Bytes.HoldsAt.toArray source.bytes
  obtain ⟨layout, hread, -, hend⟩ := TileLayout.read_of_holdsAt hstored
  have hstart : layout.textureOffset = 40 + source.layers.bytes.length + 7 :=
    congrArg (· + TileLayout.textureGap) hend
  have hpages := TexturePage.readAll_of_holdsAt (StoredBackground.holdsAt_pages hstored)
  rw [← hstart] at hpages
  have hpalettes := Palette.readAll_eq (StoredBackground.holdsAt_flags hstored)
    (Bytes.HoldsAt.toArray colors.bytes)
  exact ⟨⟨_, layout.layers, layout.tiles source.bytes.toArray, _⟩,
    decode_eq_ok.mpr ⟨hpalettes, layout, hread, rfl, rfl, hpages⟩, rfl⟩

/-- A section with one page, of direct colors. -/
def directColors : StoredBackground :=
  { twoLayers with
    pages := (Vector.replicate 42 none).set 7 (some ⟨2, by decide, Vector.replicate 2 0,
      ⟨2, Array.replicate 131072 5⟩, .inr rfl, Array.size_replicate⟩) }

/-- The byte with number 515 is the high one of the second texel in the second row. -/
theorem texels_cover_directColors :
    ∃ background, ((ofBytes directColors.bytes.toArray).decode twoPalettes.bytes.toArray).1
        = .ok background
      ∧ background.pages.length = 42
      ∧ ∃ page : TexturePage, some page ∈ background.pages
        ∧ (page.texel? 255 255).isSome ∧ page.texel? 256 0 = none
        ∧ (page.setByte 515 9).texel? 1 1 ≠ page.texel? 1 1
        ∧ (page.setByte 515 9).texel? 2 1 = page.texel? 2 1 := by
  obtain ⟨background, hdecode, hpages⟩ := exists_decode_pages directColors twoPalettes
  obtain ⟨hlength, hcover⟩ := texels_cover hdecode
  have hmem : some ⟨2, Array.replicate 131072 5⟩ ∈ background.pages := by
    rw [hpages]
    exact List.mem_of_getElem? (show _[7]? = _ from rfl)
  obtain ⟨hsome, -, -, hchange⟩ := hcover _ hmem
  have hsize : 515 < (Array.replicate 131072 (5 : UInt8)).size := by
    rw [Array.size_replicate]
    decide
  have hother : (Array.replicate 131072 (5 : UInt8))[515]? ≠ some 9 := by
    rw [Array.getElem?_replicate]
    decide
  have hnone : ¬(TexturePage.texel? ⟨2, Array.replicate 131072 5⟩ 256 0).isSome := fun hpresent =>
    absurd ((hsome 256 0).mp hpresent) (by decide)
  refine ⟨background, hdecode, hlength, _, hmem, (hsome 255 255).mpr (by decide),
    Option.not_isSome_iff_eq_none.mp hnone, (hchange 515 9 hsize hother 1 1).mpr (by decide), ?_⟩
  exact not_ne_iff.mp fun hne =>
    absurd ((hchange 515 9 hsize hother 2 1).mp hne) (by decide)

end BackgroundStore

end FieldMap
