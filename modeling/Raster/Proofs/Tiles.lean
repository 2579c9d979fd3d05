import Raster.Proofs.Layers
/-!
# Bands in tiles

A band is cut into tiles, which are bands that lie inside it and of which exactly one contains
each of its pixels (`Band.TiledBy`). To draw the tiles, in whatever order, is to draw the band:
to fill them with the color of the band, or to copy each from its own place in the source. The
rows of a tile may be turned around in memory, and a drawing operation may ask for the old
destination; but every pixel has one tile, and what that makes of the pixel is what the band
makes of it (`Layer.paintAll_tiles`).

A pool of no threads is refused for every tile as it is refused for the band. Otherwise all
requests are granted. `tiles_drawn` says both.
-/

namespace Raster

variable {f s : PixelFormat}

/-! ### Tiles -/

namespace Band

/-- The band lies inside another, with its corners, even if it is empty. -/
def Within (tile band : Band) : Prop :=
  (band.x.toNat ≤ tile.x.toNat ∧
    tile.x.toNat + tile.width.toNat ≤ band.x.toNat + band.width.toNat) ∧
  band.y.toNat ≤ tile.y.toNat ∧
    tile.y.toNat + tile.height.toNat ≤ band.y.toNat + band.height.toNat

instance (tile band : Band) : Decidable (tile.Within band) := inferInstanceAs (Decidable (_ ∧ _))

/-- The tiles lie inside the band, and each pixel of the band is in exactly one of them. -/
structure TiledBy (band : Band) (tiles : List Band) : Prop where
  within : ∀ tile ∈ tiles, tile.Within band
  once : ∀ x y, band.Contains x y → tiles.countP (fun tile => tile.Contains x y) = 1

variable {tile band : Band} {tiles : List Band}

theorem Within.contains {x y : Nat} (h : tile.Within band) (here : tile.Contains x y) :
    band.Contains x y := by
  simp only [Within] at h
  simp only [Contains] at here ⊢
  omega

theorem Within.fits {width height : UInt32} (h : tile.Within band)
    (fits : band.Fits width height) : tile.Fits width height := by
  simp only [Within] at h
  simp only [Fits] at fits ⊢
  omega

/-- The only tile of a pixel. -/
theorem TiledBy.filter_eq {x y : Nat} (tiled : band.TiledBy tiles) (here : band.Contains x y) :
    ∃ tile ∈ tiles, tile.Contains x y ∧
      tiles.filter (fun tile => tile.Contains x y) = [tile] := by
  have once := tiled.once x y here
  rw [List.countP_eq_length_filter, List.length_eq_one_iff] at once
  obtain ⟨tile, only⟩ := once
  have found : tile ∈ tiles.filter fun tile => tile.Contains x y := only ▸ List.mem_singleton_self _
  rw [List.mem_filter, decide_eq_true_eq] at found
  exact ⟨tile, found.1, found.2, only⟩

/-- A pixel beside the band has no tile. -/
theorem TiledBy.not_contains {x y : Nat} (tiled : band.TiledBy tiles)
    (beside : ¬ band.Contains x y) : ∀ tile ∈ tiles, ¬ tile.Contains x y :=
  fun tile mem here => beside ((tiled.within tile mem).contains here)

end Band

/-- Layers on the tiles of a band that make of their pixels what a layer on the band does, make
of every pixel what that does. -/
theorem Layer.paintAll_tiles {band : Band} {tiles : List Band} (tiled : band.TiledBy tiles)
    {whole : Layer f} {part : Band → Layer f} (onBand : whole.band = band)
    (onTile : ∀ tile, (part tile).band = tile)
    (same : ∀ tile ∈ tiles, ∀ x y, tile.Contains x y →
      (part tile).change x y = whole.change x y) :
    paintAll (tiles.map part) = whole.paint := by
  subst onBand
  funext x y d
  by_cases here : whole.band.Contains x y
  · obtain ⟨tile, mem, there, only⟩ := tiled.filter_eq here
    rw [paintAll_eq, List.filter_map, List.foldl_map]
    simp only [Function.comp_def, onTile]
    rw [only, paint_of_contains here, List.foldl_cons, List.foldl_nil, same tile mem x y there]
  · rw [paint_of_not_contains here, paintAll_of_none]
    intro layer mem
    obtain ⟨tile, inTiles, rfl⟩ := List.mem_map.mp mem
    rw [onTile]
    exact tiled.not_contains here tile inTiles

namespace Drawing

/-! ### Requests in parts -/

variable {fb : Framebuffer f} {whole : Drawing f} {parts : List (Drawing f)} {threads : Prop}

/-- To make the requests `parts` one after the other is to make the request `whole`. -/
structure InParts (fb : Framebuffer f) (threads : Prop) (whole : Drawing f)
    (parts : List (Drawing f)) : Prop where
  /-- They leave the same framebuffer, on whatever pools. -/
  same : ∀ pools pool, (inTurn pools parts fb).state = (whole.outcome pool fb).state
  /-- If there are threads, all of them are granted, and so is the whole. -/
  granted : threads → ∀ pools pool, ∃ fb', inTurn pools parts fb = .finished fb' ∧
    whole.outcome pool fb = .finished fb'
  /-- If not, each of them is refused for that, and so is the whole. -/
  refused : ¬ threads → ∀ drawing ∈ whole :: parts, ∀ pool, ∃ e,
    drawing.outcome pool fb = .stopped (.error e) fb ∧ e.category = .validation

/-- Requests that are all refused leave the framebuffer as it is. -/
theorem state_inTurn_of_refused
    (refused : ∀ drawing ∈ parts, ∀ pool, ∃ e, drawing.outcome pool fb = .stopped (.error e) fb)
    (pools : Nat → Pool) : (inTurn pools parts fb).state = fb := by
  cases parts with
  | nil => rfl
  | cons drawing rest =>
      obtain ⟨e, stop⟩ := refused drawing List.mem_cons_self (pools 0)
      rw [inTurn, stop, Outcome.stopped_andThen, Outcome.state_stopped]

/-- Requests whose layers, one upon the other, make of every pixel what that of the whole does. -/
theorem inParts_of_layers {layer : Layer f} {layers : List (Layer f)}
    (all : whole.Manned fb.toGeometry threads layer)
    (each : List.Forall₂ (fun drawing layer => drawing.Manned fb.toGeometry threads layer) parts
      layers)
    (same : ∀ x y d, x < fb.width.toNat → y < fb.height.toNat →
      Layer.paintAll layers x y d = layer.paint x y d) :
    InParts fb threads whole parts := by
  have granted : threads → ∀ pools pool, ∃ fb', inTurn pools parts fb = .finished fb' ∧
      whole.outcome pool fb = .finished fb' := by
    intro manned pools pool
    refine ⟨fb.mapPixels layer.paint, ?_, all.answers manned pool fb rfl⟩
    rw [← Framebuffer.mapPixels_congr same]
    exact inTurn_eq_mapPixels (each.imp fun _ _ h => h.answers manned) pools fb rfl
  have refused : ¬ threads → ∀ drawing ∈ whole :: parts, ∀ pool, ∃ e,
      drawing.outcome pool fb = .stopped (.error e) fb ∧ e.category = .validation := by
    intro idle
    rw [List.forall_mem_cons]
    exact ⟨all.refused idle,
      ((List.forall₂_and_left _ _).mp (each.imp fun _ _ h => ⟨h.refused idle, h⟩)).1⟩
  refine ⟨?_, granted, refused⟩
  intro pools pool
  by_cases manned : threads
  · obtain ⟨fb', run, once⟩ := granted manned pools pool
    rw [run, once]
  · obtain ⟨e, stop, -⟩ := refused manned whole List.mem_cons_self pool
    rw [stop, Outcome.state_stopped]
    refine state_inTurn_of_refused ?_ pools
    intro drawing mem pool
    obtain ⟨e, stop, -⟩ := refused manned drawing (List.mem_cons_of_mem _ mem) pool
    exact ⟨e, stop⟩

/-- Requests for the tiles of a band, with layers that make of their pixels what that of the band
does. -/
theorem inParts_of_tiles {band : Band} {tiles : List Band} (tiled : band.TiledBy tiles)
    {layer : Layer f} {draw : Band → Drawing f} (part : Band → Layer f)
    (all : whole.Manned fb.toGeometry threads layer) (onBand : layer.band = band)
    (each : ∀ tile ∈ tiles, (draw tile).Manned fb.toGeometry threads (part tile))
    (onTile : ∀ tile, (part tile).band = tile)
    (same : ∀ tile ∈ tiles, ∀ x y, tile.Contains x y →
      (part tile).change x y = layer.change x y) :
    InParts fb threads whole (tiles.map draw) := by
  have layers : List.Forall₂ (fun drawing layer => drawing.Manned fb.toGeometry threads layer)
      (tiles.map draw) (tiles.map part) := by
    rw [List.forall₂_map_left_iff, List.forall₂_map_right_iff, List.forall₂_same]
    exact each
  refine inParts_of_layers all layers ?_
  intro x y d _ _
  rw [Layer.paintAll_tiles tiled onBand onTile same]

end Drawing

/-! ### Filling and copying tiles -/

section Copying

variable {tile band : Band} {sx sy : UInt32}

/-- The corner of a tile is as far from that of the source as from that of the band. -/
theorem Band.Within.toNat_corner {width height : UInt32} (h : tile.Within band)
    (fits : (band.movedTo sx sy).Fits width height) :
    (sx + (tile.x - band.x)).toNat = sx.toNat + (tile.x.toNat - band.x.toNat) ∧
      (sy + (tile.y - band.y)).toNat = sy.toNat + (tile.y.toNat - band.y.toNat) := by
  obtain ⟨⟨left, right⟩, top, bottom⟩ := h
  have columns : sx.toNat + band.width.toNat ≤ width.toNat := fits.1
  have rows : sy.toNat + band.height.toNat ≤ height.toNat := fits.2
  have small := width.toNat_lt
  have small' := height.toNat_lt
  constructor
  · rw [UInt32.toNat_add, UInt32.toNat_sub_of_le _ _ (UInt32.le_iff_toNat_le.mpr left),
      Nat.mod_eq_of_lt (by omega)]
  · rw [UInt32.toNat_add, UInt32.toNat_sub_of_le _ _ (UInt32.le_iff_toNat_le.mpr top),
      Nat.mod_eq_of_lt (by omega)]

/-- The source of a tile lies in that of the band. -/
theorem Band.Within.fits_movedTo {width height : UInt32} (h : tile.Within band)
    (fits : (band.movedTo sx sy).Fits width height) :
    (tile.movedTo (sx + (tile.x - band.x)) (sy + (tile.y - band.y))).Fits width height := by
  obtain ⟨column, row⟩ := h.toNat_corner fits
  simp only [Band.Within] at h
  simp only [Band.Fits, Band.movedTo] at fits ⊢
  omega

/-- What is copied onto a pixel of a tile is what is copied onto it as a pixel of the band. -/
theorem Layer.change_copy_tile {width height : UInt32} (op : Operation f s) (src : Framebuffer s)
    (h : tile.Within band) (fits : (band.movedTo sx sy).Fits width height) {x y : Nat}
    (here : tile.Contains x y) :
    (copy op tile src (sx + (tile.x - band.x)).toNat (sy + (tile.y - band.y)).toNat).change x y =
      (copy op band src sx.toNat sy.toNat).change x y := by
  obtain ⟨column, row⟩ := h.toNat_corner fits
  obtain ⟨⟨left, -⟩, top, -⟩ := h
  obtain ⟨⟨right, -⟩, below, -⟩ := here
  have columns : sx.toNat + (tile.x.toNat - band.x.toNat) + (x - tile.x.toNat) =
      sx.toNat + (x - band.x.toNat) := by omega
  have rows : sy.toNat + (tile.y.toNat - band.y.toNat) + (y - tile.y.toNat) =
      sy.toNat + (y - band.y.toNat) := by omega
  simp only [copy, column, row, columns, rows]

end Copying

/-- Filling and copying a band that lies in its picture is filling and copying its tiles, each
tile being copied from as far into the source as it lies in the band. The band and the tiles are
granted unless the pool is to have no threads, and then all of them are refused for that. A pool of
one thread or more is assumed to be built whenever it is asked for (see `Threading`). -/
theorem tiles_drawn (fb : Framebuffer f) (op : Operation f s) (band : Band) (c : Color s)
    (src : Framebuffer s) (sx sy : UInt32) (threading : Threading) (tiles : List Band)
    (fits : band.Fits fb.width fb.height) (tiled : band.TiledBy tiles) :
    Drawing.InParts fb (threading.threads ≠ some 0) (.fillRows op band c threading)
      (tiles.map fun tile => .fillRows op tile c threading) ∧
    ((band.movedTo sx sy).Fits src.width src.height →
      Drawing.InParts fb (threading.threads ≠ some 0) (.copyRows op band src sx sy threading)
        (tiles.map fun tile => .copyRows op tile src (sx + (tile.x - band.x))
          (sy + (tile.y - band.y)) threading)) := by
  constructor
  · refine Drawing.inParts_of_tiles tiled (fun tile => .fill op tile c)
      (Drawing.manned_fillRows op c threading fits) rfl ?_ (fun _ => rfl) (fun _ _ _ _ _ => rfl)
    intro tile mem
    exact Drawing.manned_fillRows op c threading ((tiled.within tile mem).fits fits)
  · intro fitsSrc
    refine Drawing.inParts_of_tiles tiled
      (fun tile => .copy op tile src (sx + (tile.x - band.x)).toNat (sy + (tile.y - band.y)).toNat)
      (Drawing.manned_copyRows op threading fits fitsSrc) rfl ?_ (fun _ => rfl) ?_
    · intro tile mem
      have inside := tiled.within tile mem
      exact Drawing.manned_copyRows op threading (inside.fits fits) (inside.fits_movedTo fitsSrc)
    · intro tile mem x y here
      exact Layer.change_copy_tile op src (tiled.within tile mem) fitsSrc here

/-- A picture of three columns, stored from the bottom up, whose right column is a tile and whose
other pixels are one tile for each row. -/
theorem tiles_drawn_columns :
    let fb : Framebuffer .gray8 := ⟨⟨3, 2, .bottomUp⟩, #[1, 2, 3, 4, 5, 6], rfl, by decide⟩
    let src : Framebuffer .gray8 := ⟨⟨4, 2, .topDown⟩, #[8, 7, 6, 5, 4, 3, 2, 1], rfl, by decide⟩
    let op : Operation .gray8 .gray8 := .blend 128
    let threading : Threading := ⟨true, some 2, 1⟩
    let tiles : List Band := [⟨2, 0, 1, 2⟩, ⟨0, 1, 2, 1⟩, ⟨0, 0, 2, 1⟩]
    Drawing.InParts fb (threading.threads ≠ some 0) (.fillRows op ⟨0, 0, 3, 2⟩ (.gray 9) threading)
      (tiles.map fun tile => .fillRows op tile (.gray 9) threading) ∧
    Drawing.InParts fb (threading.threads ≠ some 0)
      (.copyRows op ⟨0, 0, 3, 2⟩ src 1 0 threading)
      (tiles.map fun tile => .copyRows op tile src (1 + (tile.x - 0)) (0 + (tile.y - 0))
        threading) := by
  intro fb src op threading tiles
  have tiled : (⟨0, 0, 3, 2⟩ : Band).TiledBy tiles := by
    refine ⟨by decide, ?_⟩
    intro x y here
    have pixels : ∀ x < 3, ∀ y < 2, tiles.countP (fun tile => tile.Contains x y) = 1 := by decide
    exact pixels x here.1.2 y here.2.2
  have law := tiles_drawn fb op ⟨0, 0, 3, 2⟩ (.gray 9) src 1 0 threading tiles (by decide) tiled
  exact ⟨law.1, law.2 (by decide)⟩

/-- A picture of one pixel is its only tile, but it is not filled on a pool of no threads. -/
theorem tiles_refused_unmanned :
    let fb : Framebuffer .gray8 := ⟨⟨1, 1, .topDown⟩, #[0], rfl, by decide⟩
    let band : Band := ⟨0, 0, 1, 1⟩
    band.Fits fb.width fb.height ∧ band.TiledBy [band] ∧ ∀ pools fb',
      Drawing.inTurn pools [.fillRows .copy band (.gray 9) ⟨false, some 0, 16⟩] fb ≠
        .finished fb' := by
  intro fb band
  refine ⟨by decide, ⟨by decide, ?_⟩, ?_⟩
  · intro x y here
    rw [List.countP_singleton, decide_eq_true here, if_pos rfl]
  · intro pools fb' done
    cases done

end Raster
