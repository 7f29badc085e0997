import SkyDiscovery.Field.Descriptor
import SkyDiscovery.Protocol

/-!
# Standard fields

The fields that each protocol defines, in the order of a response.  The data-model name of a field
is that of the table here after the name of the protocol's model.
-/

namespace SkyDiscovery

/-- The storage of the values of a standard field. -/
inductive Storage where
  | text
  | int
  | long
  | double
  deriving DecidableEq

def Storage.datatype : Storage → String
  | text => "char"
  | int => "int"
  | long => "long"
  | double => "double"

/-- A standard field before it is given to a protocol. -/
structure StandardField where
  id : String
  name : String
  storage : Storage
  unit : Option String
  hint : String

namespace StandardField

def standard (id name : String) (storage : Storage) (unit : Option String) (hint : String) :
    StandardField :=
  ⟨id, name, storage, unit, hint⟩

def ofImage : List StandardField :=
  [ standard "assoc_id" "Association.ID" .text none "m",
    standard "access_url" "Access.Reference" .text none "m",
    standard "access_format" "Access.Format" .text none "m",
    standard "access_estsize" "Access.Size" .long (some "kbyte") "q",
    standard "dataproduct_type" "Dataset.Type" .text none "m",
    standard "dataproduct_subtype" "Dataset.SubType" .text none "",
    standard "calib_level" "Dataset.CalibLevel" .int none "q",
    standard "dataset_length" "Dataset.Length" .long none "",
    standard "im_nsubarrays" "Image.NSubarrays" .int none "",
    standard "im_naxes" "Image.Naxes" .int none "m",
    standard "im_naxis" "Image.Naxis" .text none "m",
    standard "im_pixtype" "Image.PixType" .text none "q",
    standard "im_wcsaxes" "Image.WCSAxes" .text none "q",
    standard "im_scale" "Image.Scale" .double (some "arcsec") "q",
    standard "obs_title" "DataID.Title" .text none "m",
    standard "obs_id" "DataID.ObservationID" .text none "",
    standard "obs_creator_name" "DataID.Creator" .text none "",
    standard "obs_collection" "DataID.Collection" .text none "q",
    standard "obs_creator_did" "DataID.CreatorDID" .text none "",
    standard "obs_dataset_did" "DataID.DatasetDID" .text none "",
    standard "obs_creation_type" "DataID.CreationType" .text none "q",
    standard "obs_creation_date" "DataID.Date" .text none "",
    standard "facility_name" "Provenance.Facility" .text none "q",
    standard "instrument_name" "Provenance.Instrument" .text none "q",
    standard "obs_bandpass" "Provenance.Bandpass" .text none "",
    standard "obs_datasource" "Provenance.DataSource" .text none "",
    standard "proposal_id" "Provenance.Proposal" .text none "",
    standard "obs_publisher_did" "Curation.PublisherDID" .text none "m",
    standard "obs_release_date" "Curation.ReleaseDate" .text none "",
    standard "preview" "Curation.Preview" .text none "q",
    standard "target_name" "Target.Name" .text none "q",
    standard "target_class" "Target.Class" .text none "",
    standard "s_ra" "Char.SpatialAxis.Coverage.Location.C1" .double (some "deg") "m",
    standard "s_dec" "Char.SpatialAxis.Coverage.Location.C2" .double (some "deg") "m",
    standard "s_fov" "Char.SpatialAxis.Coverage.Bounds.Extent" .double (some "deg") "m",
    standard "s_region" "Char.SpatialAxis.Coverage.Support.Area" .text none "q",
    standard "s_calib_status" "Char.SpatialAxis.CalibrationStatus" .text none "",
    standard "s_resolution" "Char.SpatialAxis.Resolution" .double (some "arcsec") "q",
    standard "em_min" "Char.SpectralAxis.Coverage.Bounds.Start" .double (some "m") "m",
    standard "em_max" "Char.SpectralAxis.Coverage.Bounds.Stop" .double (some "m") "m",
    standard "em_resolution" "Char.SpectralAxis.Resolution" .double (some "m") "q",
    standard "em_res_power" "Char.SpectralAxis.ResolvingPower" .double none "",
    standard "t_min" "Char.TimeAxis.Coverage.Bounds.Start" .double (some "d") "m",
    standard "t_max" "Char.TimeAxis.Coverage.Bounds.Stop" .double (some "d") "m",
    standard "t_exptime" "Char.TimeAxis.Coverage.Support.Extent" .double (some "s") "q",
    standard "t_resolution" "Char.TimeAxis.Resolution" .double (some "s") "",
    standard "o_ucd" "Char.FluxAxis.Ucd" .text none "",
    standard "o_unit" "Char.FluxAxis.Unit" .text none "",
    standard "o_calib_status" "Char.FluxAxis.CalibrationStatus" .text none "",
    standard "pol_states" "Char.PolarizationAxis.StateList" .text none "q" ]

def ofSpectrum : List StandardField :=
  [ standard "assoc_id" "Association.ID" .text none "m",
    standard "access_url" "Access.Reference" .text none "m",
    standard "access_format" "Access.Format" .text none "m",
    standard "access_estsize" "Access.Size" .long (some "kbyte") "q",
    standard "dataproduct_type" "Dataset.Type" .text none "m",
    standard "dataproduct_subtype" "Dataset.SubType" .text none "",
    standard "calib_level" "Dataset.CalibLevel" .int none "q",
    standard "dataset_length" "Dataset.Length" .long none "q",
    standard "obs_title" "DataID.Title" .text none "m",
    standard "obs_id" "DataID.ObservationID" .text none "",
    standard "obs_creator_name" "DataID.Creator" .text none "",
    standard "obs_collection" "DataID.Collection" .text none "q",
    standard "obs_creator_did" "DataID.CreatorDID" .text none "",
    standard "obs_dataset_did" "DataID.DatasetDID" .text none "",
    standard "obs_creation_type" "DataID.CreationType" .text none "q",
    standard "obs_creation_date" "DataID.Date" .text none "",
    standard "facility_name" "Provenance.Facility" .text none "q",
    standard "instrument_name" "Provenance.Instrument" .text none "q",
    standard "obs_bandpass" "Provenance.Bandpass" .text none "",
    standard "obs_datasource" "Provenance.DataSource" .text none "",
    standard "proposal_id" "Provenance.Proposal" .text none "",
    standard "obs_publisher_did" "Curation.PublisherDID" .text none "m",
    standard "obs_release_date" "Curation.ReleaseDate" .text none "",
    standard "preview" "Curation.Preview" .text none "q",
    standard "target_name" "Target.Name" .text none "q",
    standard "target_class" "Target.Class" .text none "",
    standard "target_redshift" "Target.Redshift" .double none "",
    standard "s_ra" "Char.SpatialAxis.Coverage.Location.C1" .double (some "deg") "m",
    standard "s_dec" "Char.SpatialAxis.Coverage.Location.C2" .double (some "deg") "m",
    standard "s_fov" "Char.SpatialAxis.Coverage.Bounds.Extent" .double (some "deg") "m",
    standard "s_region" "Char.SpatialAxis.Coverage.Support.Area" .text none "q",
    standard "s_resolution" "Char.SpatialAxis.Resolution" .double (some "arcsec") "q",
    standard "em_min" "Char.SpectralAxis.Coverage.Bounds.Start" .double (some "m") "m",
    standard "em_max" "Char.SpectralAxis.Coverage.Bounds.Stop" .double (some "m") "m",
    standard "em_resolution" "Char.SpectralAxis.Resolution" .double (some "m") "q",
    standard "em_res_power" "Char.SpectralAxis.ResolvingPower" .double none "",
    standard "em_calib_status" "Char.SpectralAxis.CalibrationStatus" .text none "",
    standard "t_min" "Char.TimeAxis.Coverage.Bounds.Start" .double (some "d") "m",
    standard "t_max" "Char.TimeAxis.Coverage.Bounds.Stop" .double (some "d") "m",
    standard "t_exptime" "Char.TimeAxis.Coverage.Support.Extent" .double (some "s") "q",
    standard "t_resolution" "Char.TimeAxis.Resolution" .double (some "s") "",
    standard "o_ucd" "Char.FluxAxis.Ucd" .text none "",
    standard "o_unit" "Char.FluxAxis.Unit" .text none "",
    standard "o_calib_status" "Char.FluxAxis.CalibrationStatus" .text none "",
    standard "pol_states" "Char.PolarizationAxis.StateList" .text none "" ]

def ofCone : List StandardField :=
  [ standard "id" "Source.ID" .text none "m",
    standard "ra" "Source.Position.C1" .double (some "deg") "m",
    standard "dec" "Source.Position.C2" .double (some "deg") "m" ]

/-- The content descriptors of the fields that have one. -/
def ucds : List (String × String) :=
  [("s_ra", "pos.eq.ra;meta.main"), ("ra", "pos.eq.ra;meta.main"),
    ("s_dec", "pos.eq.dec;meta.main"), ("dec", "pos.eq.dec;meta.main"),
    ("id", "meta.id;meta.main"), ("access_url", "meta.ref.url"),
    ("obs_publisher_did", "meta.ref.ivoid")]

/-- The field as it is published under a data model. -/
def publish (model : String) (f : StandardField) : Field where
  id := f.id
  utype := model ++ ":" ++ f.name
  datatype := f.storage.datatype
  arraysize := if f.storage = .text then some "*" else none
  unit := f.unit
  ucd := ucds.lookup f.id
  hint := f.hint

end StandardField

namespace Protocol

def standardTable : Protocol → List StandardField
  | image => StandardField.ofImage
  | spectrum => StandardField.ofSpectrum
  | cone => StandardField.ofCone

/-- The standard fields of the protocol. -/
def standardFields (p : Protocol) : List Field :=
  p.standardTable.map (StandardField.publish p.model)

end Protocol

end SkyDiscovery
