import SkyDiscovery.Record.Row
import SkyDiscovery.Sky.Longitude

/-!
# Sample rows

Rows for trials of the engine: images and point sources at given positions, a small catalog around
(180, 0), and catalogs that follow a pattern.
-/

namespace SkyDiscovery.Sample

/-- A row for an image of two axes. -/
def imageRow (id : String) (ra dec : Float) : Row :=
  .ofList [("id", .text id), ("obs_title", .text ("Image " ++ id)), ("s_ra", .ofFloat ra),
    ("s_dec", .ofFloat dec), ("access_format", .text "image/fits"), ("im_naxis1", .ofNat 2048),
    ("im_naxis2", .ofNat 2048), ("im_wcsaxes1", .text "RA---TAN"),
    ("im_wcsaxes2", .text "DEC--TAN")]

/-- A row for a source of a cone search. -/
def sourceRow (id : String) (ra dec : Float) : Row :=
  .ofList [("id", .text id), ("ra", .ofFloat ra), ("dec", .ofFloat dec)]

/-- Sources around (180, 0), named for their direction and distance from it. -/
def skyAround180 : List (String × Float × Float) :=
  [("center", 180.0, 0.0), ("ne22", 200.0, 10.0), ("east29", 209.5, 0.0), ("north29", 180.0, 29.0),
    ("south31", 180.0, -31.0), ("ne38", 215.0, 15.0), ("sw28", 160.0, -20.0), ("origin", 0.0, 0.0),
    ("nw29", 155.0, 15.0), ("nw31", 150.0, 10.0)]

/-- The sources around (180, 0) as images. -/
def skyRows : List Row :=
  skyAround180.map fun (id, ra, dec) => imageRow id ra dec

/-- The identifier of the row `i` of a catalog. -/
def numbered (name : String) (i : Nat) : String :=
  name ++ "-" ++ String.ofList (Text.digits i)

/-- Images evenly spaced on a small circle, from the north eastwards. -/
def ring (ra dec radius : Float) (count : Nat) : List Row :=
  (List.range count).map fun i =>
    let angle : Float := Trigonometry.radians (Float.ofNat i * 360.0 / Float.ofNat count)
    let rowDec := dec + radius * angle.cos
    let offset := radius * angle.sin / (Trigonometry.radians rowDec : Float).cos
    imageRow (numbered "ring" i) (Longitude.normalize (ra + offset)) rowDec

/-- Images one degree apart on the equator. -/
def equator (start : Float) (count : Nat) : List Row :=
  (List.range count).map fun i =>
    imageRow (numbered "eq" i) (Longitude.normalize (start + Float.ofNat i)) 0.0

/-- Images at one position. -/
def stacked (ra dec : Float) (count : Nat) : List Row :=
  (List.range count).map fun i => imageRow (numbered "stack" i) ra dec

end SkyDiscovery.Sample
