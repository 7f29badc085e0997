import SkyDiscovery.Protocol
import SkyDiscovery.Range.Endpoint

/-!
# Declared parameters

The parameters that each protocol declares, with the way their values are read.  Names are matched
without regard to case.
-/

namespace SkyDiscovery

/-- Who defines a parameter. -/
inductive ParameterLevel where
  /-- The standard of the protocol. -/
  | core
  /-- An optional extension of the protocol. -/
  | extension
  /-- The client, without a declaration. -/
  | client
  /-- The service itself. -/
  | service
  deriving DecidableEq, Repr, Inhabited

/-- How the value of a parameter is read. -/
inductive ParameterKind where
  | ranges (declared : Option ValueType) (ordered : Bool)
  | text
  | float
  | integer
  | boolean
  deriving DecidableEq, Repr, Inhabited

namespace ParameterKind

def numericList : ParameterKind := ranges (some .numeric) false

def numericRanges : ParameterKind := ranges (some .numeric) true

def dateRanges : ParameterKind := ranges (some .date) true

def textList : ParameterKind := ranges (some .text) false

end ParameterKind

structure Declaration where
  name : String
  kind : ParameterKind
  level : ParameterLevel
  description : String
  deriving DecidableEq, Repr, Inhabited

namespace Declaration

def core (name : String) (kind : ParameterKind) (description : String) : Declaration :=
  ⟨name, kind, .core, description⟩

def extension (name : String) (kind : ParameterKind) (description : String) : Declaration :=
  ⟨name, kind, .extension, description⟩

def service (name : String) (kind : ParameterKind) (description : String) : Declaration :=
  ⟨name, kind, .service, description⟩

open ParameterKind

def ofImage : List Declaration :=
  [ service "VERSION" text "Protocol version",
    service "REQUEST" text "Operation to be performed",
    core "POS" numericList "Central coordinates of search region",
    core "SIZE" numericList "Half-width[,half-height] of the search region",
    core "BAND" numericRanges "Spectral bandpass of the search region",
    core "TIME" dateRanges "Range of times for the search region",
    core "POL" textList "Polarization types of interest",
    core "FORMAT" textList "Allowable output data formats",
    core "MODE" text "Query mode",
    extension "SPECRES" float "Minimum spectral resolution",
    extension "SPECRP" float "Spectral resolving power",
    extension "SPATRES" float "Minimum spatial resolution",
    extension "ASTCalib" text "Minimum level of astrometric calibration",
    extension "FluxCalib" text "Minimum level of flux calibration",
    extension "TYPE" text "Dataset type",
    extension "PubDID" text "Publisher-assigned dataset identifier",
    extension "Collection" text "Data collection names or patterns",
    core "MAXREC" integer "Maximum number of output records",
    core "VERB" integer "Output verbosity level",
    service "RUNID" text "Runtime job ID string" ]

def ofSpectrum : List Declaration :=
  [ service "VERSION" text "Protocol version",
    service "REQUEST" text "Operation to be performed",
    core "POS" numericList "Central coordinates of search region",
    core "SIZE" numericList "Radius of the search region",
    core "BAND" numericRanges "Spectral bandpass of the search region",
    core "TIME" dateRanges "Range of times for the search region",
    extension "POL" textList "Polarization types of interest",
    core "FORMAT" textList "Allowable output data formats",
    core "MODE" text "Query mode",
    extension "SPECRES" float "Minimum spectral resolution",
    extension "SPECRP" float "Spectral resolving power",
    extension "SPATRES" float "Minimum spatial resolution",
    extension "FluxCalib" text "Spectrum is flux calibrated",
    extension "WaveCalib" text "Spectrum is wavelength calibrated",
    extension "PubDID" text "Publisher-assigned dataset identifier",
    extension "Collection" text "Data collection names or patterns",
    core "MAXREC" integer "Maximum number of output records",
    core "VERB" integer "Output verbosity level",
    service "RUNID" text "Runtime job ID string" ]

def ofCone : List Declaration :=
  [ core "RA" float "Right ascension of the search center",
    core "DEC" float "Declination of the search center",
    core "SR" float "Search radius",
    extension "POS" numericList "Central coordinates of search region",
    extension "SIZE" numericList "Radius of the search region",
    core "MAXREC" integer "Maximum number of output records",
    core "VERB" integer "Output verbosity level",
    service "RUNID" text "Runtime job ID string" ]

end Declaration

namespace Protocol

/-- The parameters that the protocol declares. -/
def declarations : Protocol → List Declaration
  | image => Declaration.ofImage
  | spectrum => Declaration.ofSpectrum
  | cone => Declaration.ofCone

/-- The declaration of a name in any case, with blanks around it. -/
def declaration? (p : Protocol) (name : String) : Option Declaration :=
  p.declarations.find? fun d => Text.sameIgnoringCase d.name (Text.trimmed name)

end Protocol

end SkyDiscovery
