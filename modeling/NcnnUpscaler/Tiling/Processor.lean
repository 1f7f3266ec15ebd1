import NcnnUpscaler.Tiling.Tiles

/-!
# process_with_tiling

`tiling_processor.cpp`: decode, process the image whole or tile by tile, encode.
The engine is a state transformer and the codecs are parameters.  What the tile
loop does is recorded: the calls to `process_rgb` in order, and for each tile its
pixels and what the engine returned for them.
-/

namespace NcnnUpscaler.Tiling

open Raster

/-- `BaseEngine` as the tile loop uses it.  `processRgb` returns the output when
the call returns true. -/
structure RgbEngine (σ : Type) where
  processRgb : σ → (rgbData : Rgb) → (width height : Int) → σ × Option ImagePixels

/-- `image_io`. -/
structure Codec where
  decodeImage : List UInt8 → Option ImagePixels
  encodeImage : ImagePixels → (format : String) → Option (List UInt8)

/-- The part of an upscaled tile that is blended: where it starts and how large
it is. -/
structure Region where
  srcOffsetX : Int
  srcOffsetY : Int
  blendWidth : Int
  blendHeight : Int
  deriving DecidableEq, Repr

/-- What is left of an upscaled tile once the overlap with the tiles before it
is skipped. -/
def blendRegion (config : TilingConfig) (tile : Tile) (upscaled : ImagePixels) : Region :=
  let overlapScaled := config.overlap * config.scaleFactor
  let srcOffsetX := if tile.outputX > 0 then overlapScaled else 0
  let srcOffsetY := if tile.outputY > 0 then overlapScaled else 0
  { srcOffsetX, srcOffsetY
    blendWidth := upscaled.width - srcOffsetX
    blendHeight := upscaled.height - srcOffsetY }

/-- The `memcpy` calls that fill `region_to_blend`. -/
def regionCopies (upscaledWidth : Int) (region : Region) : List Copy :=
  (List.range region.blendHeight.toNat).map fun row : Nat =>
    { dst := row * region.blendWidth * 3
      src := ((region.srcOffsetY + row) * upscaledWidth + region.srcOffsetX) * 3
      len := region.blendWidth * 3 }

/-- `region_to_blend`. -/
def regionToBlend (upscaled : ImagePixels) (region : Region) : Except Stop Rgb :=
  match allocate (region.blendWidth * region.blendHeight * 3) with
  | .error stop => .error stop
  | .ok buffer => copyRows (regionCopies upscaled.width region) buffer upscaled.pixels

/-- The loop body from the upscaled tile on: the output after it. -/
def placeTile (config : TilingConfig) (tile : Tile) (upscaled : ImagePixels) (outputRgb : Rgb)
    (outputWidth outputHeight : Int) : Except Stop Rgb :=
  let region := blendRegion config tile upscaled
  if region.blendWidth ≤ 0 ∨ region.blendHeight ≤ 0 then
    .ok outputRgb
  else
    match regionToBlend upscaled region with
    | .error stop => .error stop
    | .ok regionRgb =>
        blendTile regionRgb region.blendWidth region.blendHeight tile outputRgb
          outputWidth outputHeight

/-- The copies into the output that `placeTile` makes. -/
def placedCopies (config : TilingConfig) (tile : Tile) (upscaled : ImagePixels)
    (outputWidth outputHeight : Int) : List Copy :=
  let region := blendRegion config tile upscaled
  if region.blendWidth ≤ 0 ∨ region.blendHeight ≤ 0 then
    []
  else
    blendCopies region.blendWidth region.blendHeight tile outputWidth outputHeight

/-- The arguments of one `process_rgb` call. -/
structure RgbCall where
  rgbData : Rgb
  width : Int
  height : Int
  deriving DecidableEq, Repr

/-- A tile whose iteration of the loop was completed: its pixels and what the
engine returned for them. -/
structure TileRun where
  tile : Tile
  tileRgb : Rgb
  upscaled : ImagePixels
  deriving DecidableEq, Repr

/-- What the tile loop did: the engine afterwards, the calls to it, the completed
iterations, and the output buffer. -/
structure TileLoop (σ : Type) where
  engine : σ
  calls : List RgbCall
  runs : List TileRun
  result : Except Stop Rgb

variable {σ : Type}

/-- The tile loop, over the tiles left.  `extract` cuts a tile out of the source and
`place` blends an upscaled one into the output. -/
def tileLoop (engine : RgbEngine σ) (extract : Tile → Except Stop Rgb)
    (place : Tile → ImagePixels → Rgb → Except Stop Rgb) : List Tile → σ → Rgb → TileLoop σ
  | [], state, outputRgb => { engine := state, calls := [], runs := [], result := .ok outputRgb }
  | tile :: tiles, state, outputRgb =>
      match extract tile with
      | .error stop => { engine := state, calls := [], runs := [], result := .error stop }
      | .ok tileRgb =>
          let call : RgbCall := { rgbData := tileRgb, width := tile.width, height := tile.height }
          match engine.processRgb state tileRgb tile.width tile.height with
          | (state, none) =>
              { engine := state, calls := [call], runs := [], result := .error .failed }
          | (state, some upscaled) =>
              match place tile upscaled outputRgb with
              | .error stop =>
                  { engine := state, calls := [call], runs := [], result := .error stop }
              | .ok outputRgb =>
                  let rest := tileLoop engine extract place tiles state outputRgb
                  { rest with
                    calls := call :: rest.calls
                    runs := { tile, tileRgb, upscaled } :: rest.runs }

/-- The tiled path up to the assembled buffer, with sizes that do not overflow:
calculate the tiles, allocate the output and process each tile.  `assemble32` is the
same on machine integers. -/
def assemble (engine : RgbEngine σ) (config : TilingConfig) (source : ImagePixels)
    (state : σ) : TileLoop σ :=
  let tiles := calculateTiles source.width source.height config
  let outputWidth := source.width * config.scaleFactor
  let outputHeight := source.height * config.scaleFactor
  if tiles = [] then
    { engine := state, calls := [], runs := [], result := .error .failed }
  else
    match allocate (outputWidth * outputHeight * 3) with
    | .error stop => { engine := state, calls := [], runs := [], result := .error stop }
    | .ok outputRgb =>
        tileLoop engine (extractTile source.pixels source.width source.height)
          (fun tile upscaled outputRgb =>
            placeTile config tile upscaled outputRgb outputWidth outputHeight)
          tiles state outputRgb

/-- What `process_with_tiling` did: as for the tile loop, with the encoded
output. -/
structure TilingResult (σ : Type) where
  engine : σ
  calls : List RgbCall := []
  runs : List TileRun := []
  result : Except Stop (List UInt8)

/-- The result of encoding, as the last step returns it. -/
def encoded (codec : Codec) (image : ImagePixels) (outputFormat : String) :
    Except Stop (List UInt8) :=
  match codec.encodeImage image outputFormat with
  | none => .error .failed
  | some output => .ok output

/-- The path of an image too small for tiles: one call for the whole of it. -/
def processDirectly (engine : RgbEngine σ) (codec : Codec) (source : ImagePixels)
    (outputFormat : String) (state : σ) : TilingResult σ :=
  let call : RgbCall :=
    { rgbData := source.pixels, width := source.width, height := source.height }
  match engine.processRgb state source.pixels source.width source.height with
  | (state, none) => { engine := state, calls := [call], result := .error .failed }
  | (state, some output) =>
      { engine := state, calls := [call]
        result := encoded codec { output with channels := 3 } outputFormat }

/-- The end of the tiled path: what the loop did, with its output encoded. -/
def TileLoop.finish (loop : TileLoop σ) (codec : Codec) (outputWidth outputHeight : Int)
    (outputFormat : String) : TilingResult σ :=
  { engine := loop.engine, calls := loop.calls, runs := loop.runs
    result :=
      match loop.result with
      | .error stop => .error stop
      | .ok outputRgb =>
          encoded codec
            { width := outputWidth, height := outputHeight, channels := 3, pixels := outputRgb }
            outputFormat }

/-- `process_with_tiling`, with sizes that do not overflow; `processWithTiling32` is
the same on machine integers. -/
def processWithTiling (engine : RgbEngine σ) (codec : Codec) (config : TilingConfig)
    (inputData : List UInt8) (outputFormat : String) (state : σ) : TilingResult σ :=
  match codec.decodeImage inputData with
  | none => { engine := state, result := .error .failed }
  | some source =>
      if shouldEnableTiling source.width source.height config then
        (assemble engine config source state).finish codec (source.width * config.scaleFactor)
          (source.height * config.scaleFactor) outputFormat
      else
        processDirectly engine codec source outputFormat state

end NcnnUpscaler.Tiling
