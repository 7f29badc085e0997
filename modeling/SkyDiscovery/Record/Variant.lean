import SkyDiscovery.Protocol
import SkyDiscovery.Record.Record
import SkyDiscovery.Text.Split

/-!
# Variants

A row yields a record for each variant of its dataset that the client asks for: the stored file,
its virtual counterpart, and a graphic.  The parameters FORMAT and MODE select variants by the
words in them.
-/

namespace SkyDiscovery

structure Variant where
  mime : String
  product : Product
  deriving DecidableEq, Repr, Inhabited

/-- Whether a word occurs in a text, in any case. -/
def occursIn (word text : String) : Bool :=
  Text.mentions word (Text.lower text).toList

/-- The kinds of files that a client accepts. -/
structure FormatSelection where
  fits : Bool
  graphics : Bool
  deriving DecidableEq, Repr

namespace FormatSelection

/-- Without a FORMAT only FITS files are accepted, and with `all` every kind. -/
def ofParameter : Option String → FormatSelection
  | none => ⟨true, false⟩
  | some s =>
    if Text.trim (Text.lower s).toList = "all".toList then ⟨true, true⟩
    else ⟨occursIn "fits" s, ["graphic", "gif", "jpeg", "jpg", "png"].any fun w => occursIn w s⟩

end FormatSelection

/-- The kinds of products that a client asks for. -/
structure ModeSelection where
  archival : Bool
  virtual : Bool
  deriving DecidableEq, Repr

namespace ModeSelection

/-- Without a MODE only stored files are asked for; a cutout mode asks for both kinds. -/
def ofParameter : Option String → ModeSelection
  | none => ⟨true, false⟩
  | some s =>
    let virtual := occursIn "cutout" s || occursIn "match" s
    ⟨virtual || occursIn "archival" s, virtual⟩

end ModeSelection

/-- The media type of the graphic that a stored format names. -/
def graphicMime? (stored : String) : Option String :=
  if occursIn "gif" stored then some "image/gif"
  else if occursIn "jpeg" stored || occursIn "jpg" stored then some "image/jpeg"
  else if occursIn "png" stored then some "image/png"
  else none

namespace Variant

/-- The variants of a stored FITS file, the stored file before the virtual one. -/
def ofFits (mime : String) (modes : ModeSelection) : List Variant :=
  (if modes.archival then [⟨mime, .archival⟩] else []) ++
    (if modes.virtual then [⟨mime, .virtual⟩] else [])

/-- The variants of a row with a stored format.  A cone search yields one for every row. -/
def select (p : Protocol) (formats : FormatSelection) (modes : ModeSelection) (stored : String) :
    List Variant :=
  if p = .cone then [⟨p.archivalMime, .archival⟩]
  else
    let fits := if formats.fits && occursIn "fits" stored then ofFits p.archivalMime modes else []
    let graphic :=
      if formats.graphics then (graphicMime? stored).toList.map fun mime => ⟨mime, .archival⟩
      else []
    fits ++ graphic

end Variant

end SkyDiscovery
