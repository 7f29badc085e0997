import SkyDiscovery.Context

/-!
# Sample contexts

A context for each protocol.  A cone search needs no more than a table.
-/

namespace SkyDiscovery.Sample

/-- A context of the sample service with a name and a table. -/
def serviceContext (name table : String) : Context where
  authority := some "ivo://dal.example.org"
  baseUrl := some "http://dal.example.org/services"
  serviceName := some name
  tableName := some table

def imageContext : Context := serviceContext "sia" "images"

def spectrumContext : Context := serviceContext "ssa" "spectra"

def coneContext : Context := { tableName := some "messier" }

end SkyDiscovery.Sample
