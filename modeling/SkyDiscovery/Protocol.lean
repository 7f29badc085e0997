import SkyDiscovery.Failure
import SkyDiscovery.Text.Blank
import SkyDiscovery.Text.Case

/-!
# Discovery protocols

The three protocols of the service, the names by which they are asked for, and the axes along which
each can constrain a search.
-/

namespace SkyDiscovery

inductive Protocol where
  /-- Simple Image Access. -/
  | image
  /-- Simple Spectral Access. -/
  | spectrum
  /-- Simple Cone Search. -/
  | cone
  deriving DecidableEq, Repr, Inhabited

/-- A property of a dataset that a search can constrain. -/
inductive Axis where
  | spatial
  | spectral
  | temporal
  | polarization
  | spatialResolution
  | spectralResolution
  | resolvingPower
  | identifier
  | collection
  | astrometricCalibration
  | fluxCalibration
  | wavelengthCalibration
  | datasetShape
  deriving DecidableEq, Repr

namespace Axis

/-- The column of a calibration axis. -/
def calibrationColumn? : Axis → Option String
  | astrometricCalibration => some "s_calib_status"
  | fluxCalibration => some "o_calib_status"
  | wavelengthCalibration => some "em_calib_status"
  | _ => none

end Axis

namespace Protocol

/-- The protocol of a name in any case, with blanks around it. -/
def ofName (s : String) : Except Failure Protocol :=
  let name := Text.lower (Text.trimmed s)
  if name ∈ ["image", "sia", "siap"] then .ok image
  else if name ∈ ["spectrum", "ssa", "ssap"] then .ok spectrum
  else if name ∈ ["cone", "scs"] then .ok cone
  else .error (.invalid "protocol" ("unknown protocol '" ++ name ++ "'"))

/-- The short name of the protocol. -/
def name : Protocol → String
  | image => "SIAP"
  | spectrum => "SSAP"
  | cone => "SCS"

/-- The word before the colon in the data-model names of the protocol's fields. -/
def model : Protocol → String
  | image => "im"
  | spectrum => "ssa"
  | cone => "scs"

/-- The media type of a stored dataset. -/
def archivalMime : Protocol → String
  | image => "image/fits"
  | spectrum => "application/fits"
  | cone => "application/x-votable+xml"

/-- Whether records carry dataset identifiers and access URLs. -/
def hasAccess : Protocol → Bool
  | cone => false
  | _ => true

/-- The axes of the protocol, in the order of their constraints. -/
def axes : Protocol → List Axis
  | image =>
    [.spatial, .spectral, .temporal, .polarization, .spatialResolution, .spectralResolution,
      .resolvingPower, .identifier, .collection, .astrometricCalibration, .fluxCalibration,
      .datasetShape]
  | spectrum =>
    [.spatial, .spectral, .temporal, .polarization, .spatialResolution, .spectralResolution,
      .resolvingPower, .identifier, .collection, .fluxCalibration, .wavelengthCalibration]
  | cone => [.spatial]

def supports (p : Protocol) (a : Axis) : Bool :=
  p.axes.contains a

end Protocol

end SkyDiscovery
