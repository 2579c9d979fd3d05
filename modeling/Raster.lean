import Raster.Framebuffer.Draw
import Raster.Operation.Description
import Raster.Main
import Raster.Session
import Raster.History
import Raster.TestCard.Pools
import Raster.Proofs.Cells
import Raster.Proofs.Spans
import Raster.Proofs.Pieces
import Raster.Proofs.Pixels
import Raster.Proofs.Requests
import Raster.Proofs.Table
import Raster.Proofs.Batches
import Raster.Proofs.RowOrder
import Raster.Proofs.Addresses
import Raster.Proofs.Strides
import Raster.Proofs.Layers
import Raster.Proofs.Commuting
import Raster.Proofs.Tiles
import Raster.Proofs.Sheets
import Raster.Proofs.Card
import Raster.Proofs.RowByRow
import Raster.Proofs.Landing
import Raster.Proofs.Making
import Raster.Proofs.Stopping
import Raster.Proofs.Snapshots
import Raster.Proofs.Smears
import Raster.Proofs.Transposing
import Raster.Proofs.Blending
import Raster.Proofs.Fading
import Raster.Proofs.Redrawing
import Raster.Proofs.Composing
import Raster.Proofs.Granularity
import Raster.Proofs.Coverage
import Raster.Proofs.Keying
import Raster.Proofs.Inverting
import Raster.Proofs.Equality
import Raster.Proofs.Exporting
import Raster.Proofs.Nearest
import Raster.Proofs.Literals
import Raster.Proofs.Spelling
import Raster.Proofs.Layouts
import Raster.Proofs.Listings
import Raster.Proofs.Colors
