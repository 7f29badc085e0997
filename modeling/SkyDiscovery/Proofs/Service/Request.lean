import SkyDiscovery.Proofs.Engine.Refusal
import SkyDiscovery.Service.Request

/-!
# Requests that a service turns down

A service reads a request and compiles its query before it looks for its database.  The fields of
the response are chosen later, by the connected engine, so a verbosity below zero is the one fault
of a request that is found behind the connection.

* `answer_of_refused`: what the engine refuses is answered at once, unless the fields are refused;
  then the fault of the database, if there is one, comes first.
-/

namespace SkyDiscovery

namespace Engine

/-- The parameters of a request or its query are refused. -/
def RefusesQuery (g : Engine) (pairs : List (String × String)) (f : Failure) : Prop :=
  ParameterSet.read g.protocol pairs = .error f ∨
    ∃ s, ParameterSet.read g.protocol pairs = .ok s ∧ g.compile s = .error f

/-- The fields of the response are refused, and nothing before. -/
def RefusesFields (g : Engine) (pairs : List (String × String)) (f : Failure) : Prop :=
  ∃ s q, ParameterSet.read g.protocol pairs = .ok s ∧ g.compile s = .ok q ∧
    g.directory s = .error f

end Engine

namespace ServiceConfig

/-- The answer to a request whose fields are refused: there is no database, it cannot be connected
to, or it is connected to in vain. -/
inductive Late (c : ServiceConfig) (connect : Connector) (given : Option String) (f : Failure) :
    Logged (Except Failure Response) → Prop
  | homeless (databaseUrl : c.databaseUrl given = .error (.missing "database URL")) :
      Late c connect given f ⟨[], .error (.missing "database URL")⟩
  | unreachable {url : String} {e : Failure} (databaseUrl : c.databaseUrl given = .ok url)
      (connection : connect url c.database.maxConnections = .error e) :
      Late c connect given f ⟨[.connected url], .error e⟩
  | connected {url : String} {catalog : Connection} (databaseUrl : c.databaseUrl given = .ok url)
      (connection : connect url c.database.maxConnections = .ok catalog) :
      Late c connect given f ⟨[.connected url], .error f⟩

theorem Late.ne_refusal {c : ServiceConfig} {connect : Connector} {given : Option String}
    {f : Failure} {l : Logged (Except Failure Response)} (h : Late c connect given f l)
    (hf : f ≠ .missing "database URL") : l ≠ ⟨[], .error f⟩ := by
  intro hl
  cases h with
  | homeless =>
    injection hl with _ hvalue
    injection hvalue with hfailure
    exact hf hfailure.symm
  | unreachable => cases hl
  | connected => cases hl

theorem databaseUrl_cases (c : ServiceConfig) (given : Option String) :
    c.databaseUrl given = .error (.missing "database URL") ∨
      ∃ url, c.databaseUrl given = .ok url := by
  unfold databaseUrl
  cases given.or c.database.url with
  | none => exact .inl rfl
  | some url => exact .inr ⟨url, rfl⟩

theorem engine_cases (c : ServiceConfig) (p : Protocol) (connection : Connection) :
    c.engine p connection = Engine.make p c.context ∨
      ∃ service, c.engine p connection = (Engine.make p c.context).withCutouts service := by
  unfold engine
  split
  · split
    · exact .inr ⟨_, rfl⟩
    · exact .inl rfl
  · exact .inl rfl

/-- The settings for cutouts have no part in the query and the fields. -/
theorem run_engine_of_refused (c : ServiceConfig) (p : Protocol) (connection : Connection)
    {s : ParameterSet} {q : CatalogQuery} {f : Failure}
    (hq : (Engine.make p c.context).compile s = .ok q)
    (hd : (Engine.make p c.context).directory s = .error f) (catalog : Catalog) :
    (c.engine p connection).run s catalog = ⟨[], .error f⟩ := by
  have hrefused : (c.engine p connection).compile s = .ok q ∧
      (c.engine p connection).directory s = .error f := by
    rcases c.engine_cases p connection with h | ⟨service, h⟩
    · rw [h]
      exact ⟨hq, hd⟩
    · rw [h]
      exact ⟨hq, hd⟩
  rw [Engine.run, hrefused.1]
  dsimp only
  rw [hrefused.2]
  rfl

theorem prepare_of_refusesQuery {c : ServiceConfig} {p : Protocol} {pairs : List (String × String)}
    {f : Failure} (h : (Engine.make p c.context).RefusesQuery pairs f) (given : Option String) :
    c.prepare p pairs given = .error f := by
  unfold prepare
  rcases h with hread | ⟨s, hread, hcompile⟩
  · rw [show ParameterSet.read p pairs = .error f from hread]
    rfl
  · rw [show ParameterSet.read p pairs = .ok s from hread]
    simp only [bind, Except.bind, hcompile]

/-! ### Requests with a query -/

section

variable {c : ServiceConfig} {connect : Connector} {p : Protocol} {pairs : List (String × String)}
  {given : Option String} {s : ParameterSet} {q : CatalogQuery} {url : String}
  (hread : ParameterSet.read p pairs = .ok s) (hq : (Engine.make p c.context).compile s = .ok q)

include hread hq

theorem prepare_of_compiled (given : Option String) :
    c.prepare p pairs given = (c.databaseUrl given).map (s, ·) := by
  unfold prepare
  rw [hread]
  simp only [bind, Except.bind, hq]
  rfl

theorem answer_of_homeless {e : Failure} (hurl : c.databaseUrl given = .error e) :
    c.answer connect p pairs given = ⟨[], .error e⟩ := by
  rw [answer, prepare_of_compiled hread hq, hurl]
  rfl

theorem answer_of_unreachable {e : Failure} (hurl : c.databaseUrl given = .ok url)
    (hconnect : connect url c.database.maxConnections = .error e) :
    c.answer connect p pairs given = ⟨[.connected url], .error e⟩ := by
  rw [answer, prepare_of_compiled hread hq, hurl]
  simp only [Except.map, hconnect]
  rfl

theorem answer_of_connected {connection : Connection} (hurl : c.databaseUrl given = .ok url)
    (hconnect : connect url c.database.maxConnections = .ok connection) :
    c.answer connect p pairs given =
      Logged.log (.connected url) >>= fun _ =>
        (c.engine p connection).run s connection.catalog := by
  rw [answer, prepare_of_compiled hread hq, hurl]
  simp only [Except.map, hconnect]

end

/-- What the engine refuses is answered with that refusal before the database is looked for, except
for a negative verbosity: that is found only behind the connection. -/
theorem answer_of_refused (c : ServiceConfig) (connect : Connector) (p : Protocol)
    (pairs : List (String × String)) (given : Option String) (f : Failure) :
    ((Engine.make p c.context).RefusesQuery pairs f →
      c.answer connect p pairs given = ⟨[], .error f⟩) ∧
    ((Engine.make p c.context).RefusesFields pairs f →
      f = .invalid "VERB" "must not be negative" ∧
      (∃ s v, ParameterSet.read p pairs = .ok s ∧ s.integer? "VERB" = some v ∧ v < 0) ∧
      c.Late connect given f (c.answer connect p pairs given) ∧
      c.answer connect p pairs given ≠ ⟨[], .error f⟩) := by
  constructor
  · intro h
    rw [answer, prepare_of_refusesQuery h]
    rfl
  · rintro ⟨s, q, (hread : ParameterSet.read p pairs = .ok s), hq, hd⟩
    obtain ⟨⟨v, hv, hverb⟩, rfl⟩ := (Engine.directory_eq_error_iff _ _ _).1 hd
    have hlate : c.Late connect given (.invalid "VERB" "must not be negative")
        (c.answer connect p pairs given) := by
      rcases c.databaseUrl_cases given with hurl | ⟨url, hurl⟩
      · rw [answer_of_homeless hread hq hurl]
        exact .homeless hurl
      · rcases hconnect : connect url c.database.maxConnections with e | connection
        · rw [answer_of_unreachable hread hq hurl hconnect]
          exact .unreachable hurl hconnect
        · rw [answer_of_connected hread hq hurl hconnect,
            c.run_engine_of_refused p connection hq hd]
          exact .connected hurl hconnect
    exact ⟨rfl, ⟨s, v, hread, hverb, hv⟩, hlate, hlate.ne_refusal (by simp)⟩

end ServiceConfig

/-! ## A service of images -/

namespace Sample

/-- The settings of the sample service of images, without a database. -/
def imageService : ServiceConfig where
  authority := some "ivo://dal.example.org"
  baseUrl := some "http://dal.example.org/services"
  serviceName := some "sia"
  tableName := "images"

theorem refusesQuery_fk5 :
    (Engine.make .image imageService.context).RefusesQuery [("POS", "180,0;FK5")]
      (.unsupportedFrame "FK5") := by
  have h : ((ParameterSet.read .image [("POS", "180,0;FK5")]).toOption.any fun s =>
      failure? ((Engine.make .image imageService.context).compile s) =
        some (.unsupportedFrame "FK5")) = true := by
    decide +kernel
  obtain ⟨s, hread, hcompile⟩ := exists_ok_of_any h
  exact .inr ⟨s, hread, failure?_eq_some_iff.1 (of_decide_eq_true hcompile)⟩

theorem refusesFields_negative :
    (Engine.make .image imageService.context).RefusesFields [("VERB", "-1")]
      (.invalid "VERB" "must not be negative") := by
  have h : ((ParameterSet.read .image [("VERB", "-1")]).toOption.any fun s =>
      ((Engine.make .image imageService.context).compile s).toOption.any fun _ =>
        failure? ((Engine.make .image imageService.context).directory s) =
          some (.invalid "VERB" "must not be negative")) = true := by
    decide +kernel
  obtain ⟨s, hread, hs⟩ := exists_ok_of_any h
  obtain ⟨q, hq, hdirectory⟩ := exists_ok_of_any hs
  exact ⟨s, q, hread, hq, failure?_eq_some_iff.1 (of_decide_eq_true hdirectory)⟩

end Sample

theorem refuseConnection_of_colon {url : String} (h : ':' ∈ url.toList) (n : Nat) :
    refuseConnection url n =
      .error (.catalog "connection failed: no driver for this database") := by
  simp [refuseConnection, h]

namespace ServiceConfig

/-- A frame that cannot be searched and a negative verbosity, each with a database that cannot be
reached. -/
theorem answer_of_refused_unreachable :
    let g := Engine.make .image Sample.imageService.context
    let url := "postgres://unreachable.invalid/dal"
    let verbosity := Failure.invalid "VERB" "must not be negative"
    g.RefusesQuery [("POS", "180,0;FK5")] (.unsupportedFrame "FK5") ∧
      Sample.imageService.answer refuseConnection .image [("POS", "180,0;FK5")] (some url) =
        ⟨[], .error (.unsupportedFrame "FK5")⟩ ∧
      g.RefusesFields [("VERB", "-1")] verbosity ∧
      Sample.imageService.Late refuseConnection (some url) verbosity
        (Sample.imageService.answer refuseConnection .image [("VERB", "-1")] (some url)) := by
  intro g url verbosity
  have hframe := (answer_of_refused Sample.imageService refuseConnection .image
    [("POS", "180,0;FK5")] (some url) (.unsupportedFrame "FK5")).1 Sample.refusesQuery_fk5
  obtain ⟨-, -, hlate, -⟩ := (answer_of_refused Sample.imageService refuseConnection .image
    [("VERB", "-1")] (some url) verbosity).2 Sample.refusesFields_negative
  exact ⟨Sample.refusesQuery_fk5, hframe, Sample.refusesFields_negative, hlate⟩

/-- A negative verbosity is not answered with its refusal: without a database the answer is that
there is none, and a database that cannot be reached is tried. -/
theorem answer_negative_verbosity :
    let pairs := [("VERB", "-1")]
    let url := "postgres://unreachable.invalid/dal"
    (Engine.make .image Sample.imageService.context).RefusesFields pairs
        (.invalid "VERB" "must not be negative") ∧
      Sample.imageService.answer refuseConnection .image pairs none =
        ⟨[], .error (.missing "database URL")⟩ ∧
      Sample.imageService.answer refuseConnection .image pairs (some url) =
        ⟨[.connected url],
          .error (.catalog "connection failed: no driver for this database")⟩ := by
  intro pairs url
  obtain ⟨s, q, hread, hq, hdirectory⟩ := Sample.refusesFields_negative
  refine ⟨⟨s, q, hread, hq, hdirectory⟩, ?_, ?_⟩
  · exact answer_of_homeless hread hq rfl
  · exact answer_of_unreachable hread hq rfl (refuseConnection_of_colon (by decide) _)

end ServiceConfig

end SkyDiscovery
