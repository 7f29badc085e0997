import SkyDiscovery.Context
import SkyDiscovery.Cutout.Program

/-!
# Service settings

The settings of a service: the table that it searches, under what names it publishes it, its
limits, its database, and the program that computes cutouts.
-/

namespace SkyDiscovery

structure DatabaseConfig where
  url : Option String := none
  maxConnections : Nat := 5

structure CutoutConfig where
  program : String
  /-- The directory into which the program writes its files. -/
  stagingDir : Option String := none
  /-- The column of the files of the datasets. -/
  locationColumn : String
  idColumn : String := "id"

/-- The program of the settings. -/
def CutoutConfig.task (c : CutoutConfig) : CutoutProgram :=
  ⟨c.program, c.stagingDir⟩

structure ServiceConfig where
  /-- The protocol where a request names none. -/
  protocol : String := "image"
  authority : Option String := none
  baseUrl : Option String := none
  serviceName : Option String := none
  tableName : String
  runId : Option String := none
  verbosity : Option Nat := none
  maxRecords : Nat := 1000
  database : DatabaseConfig := {}
  /-- Virtual records are made only with these settings. -/
  cutout : Option CutoutConfig := none
  table : TableConfig := {}

namespace ServiceConfig

/-- The context of all requests to the service. -/
def context (c : ServiceConfig) : Context where
  authority := c.authority
  baseUrl := c.baseUrl
  serviceName := c.serviceName
  runId := c.runId
  tableName := some c.tableName
  verbosity := c.verbosity
  maxRecords := c.maxRecords
  table := c.table

end ServiceConfig

end SkyDiscovery
