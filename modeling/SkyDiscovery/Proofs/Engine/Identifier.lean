import SkyDiscovery.Proofs.Engine.Fields
import SkyDiscovery.Proofs.Engine.Isolation
import SkyDiscovery.Proofs.Query.Identifier
import SkyDiscovery.Sample.Collaborators
import SkyDiscovery.Sample.Contexts

/-!
# Dataset identifiers and their rows

A dataset is published under an identifier that ends in a colon and the text of its row's id.  Who
is given an identifier takes the text after its last colon for the id.  The two agree for an id
without a colon; of any other id only the text after its last colon comes back.

* `Resolves`: what the locator and a further request make of an identifier.
* `exists_row_of_located`: a run looks for the files of its own rows only.
* `publisherId_resolves`: the identifiers of all rows.
* `datasetKey_of_colon`: an id that does not come back.
-/

namespace SkyDiscovery

namespace Context

variable {c : Context} {p : Protocol}

theorem exists_of_require {setting : Option String} {what s : String}
    (h : require setting what = .ok s) : Text.trimmed s = s ∧ s ≠ "" := by
  unfold require at h
  cases setting with
  | none => cases h
  | some u =>
    dsimp only at h
    split at h
    · cases h
    · next hempty =>
      cases h
      refine ⟨?_, fun h => hempty (by rw [h]; rfl)⟩
      rw [Text.trimmed, Text.toList_trimmed, Text.trim_trim]
      rfl

theorem exists_authority_of_validate (hvalid : c.validate p = .ok ()) (hp : p.hasAccess = true) :
    ∃ authority, c.requireAuthority = .ok authority := by
  obtain ⟨table, -, h⟩ := exists_of_bind hvalid
  rw [if_pos hp] at h
  obtain ⟨authority, hauthority, -⟩ := exists_of_bind h
  exact ⟨authority, hauthority⟩

theorem publisherId_of_authority (hvalid : c.validate p = .ok ()) {authority : String}
    (hauthority : c.requireAuthority = .ok authority) (t : String) :
    ∃ table, c.publisherId (some t) = .ok (endingIn '#' authority ++ table ++ ":" ++ t) := by
  obtain ⟨table, htable, -⟩ := exists_of_bind hvalid
  refine ⟨table, ?_⟩
  rw [publisherId, hauthority, htable]
  rfl

/-- An identifier has no blanks at its ends, unless the id brings one to its end. -/
theorem trimmed_identifier {authority t : String} (hauthority : Text.trimmed authority = authority)
    (hne : authority ≠ "") (ht : Text.trimmed t = t) (table : String) :
    Text.trimmed (endingIn '#' authority ++ table ++ ":" ++ t) =
      endingIn '#' authority ++ table ++ ":" ++ t := by
  have hlist : ∃ middle, (endingIn '#' authority ++ table ++ ":" ++ t).toList =
      authority.toList ++ (middle ++ ':' :: t.toList) := by
    unfold endingIn
    split
    · exact ⟨table.toList, by simp⟩
    · exact ⟨'#' :: table.toList, by simp⟩
  obtain ⟨middle, hmiddle⟩ := hlist
  have htrim : Text.trim (authority.toList ++ (middle ++ ':' :: t.toList)) =
      authority.toList ++ (middle ++ ':' :: t.toList) := by
    refine Text.trim_eq_self (fun c hc => ?_) fun c hc => ?_
    · rw [List.head?_append_of_ne_nil _ (by simpa using hne), ← hauthority,
        Text.toList_trimmed] at hc
      exact Text.not_isBlank_head_trim _ c hc
    · rw [← List.append_assoc, List.getLast?_append_of_ne_nil _ (List.cons_ne_nil _ _)] at hc
      -- The last character is that of the id, or the colon before an empty id.
      cases hlast : t.toList.getLast? with
      | none =>
        rw [List.getLast?_cons, hlast] at hc
        cases hc
        rfl
      | some d =>
        rw [List.getLast?_cons, hlast] at hc
        cases hc
        rw [← ht, Text.toList_trimmed] at hlast
        exact Text.not_isBlank_getLast_trim _ _ hlast
  rw [Text.trimmed, hmiddle, htrim, ← hmiddle, String.ofList_toList]

end Context

/-! ## What is made of a row -/

namespace Synthesizer

variable {z : Synthesizer} {row : Row} {v : Variant}

/-- A record is made with the identifier of its row, and shows it if it has the field. -/
theorem issued_of_synthesize (hz : z.protocol.hasAccess = true) {made : Synthesized} {did : String}
    (hdid : z.publisherId row = .ok did) (h : z.synthesize row v = .ok made) :
    made.publisherId = some did ∧
      ∀ x, made.record.get? "obs_publisher_did" = some x → x = .text did := by
  rw [synthesize, if_pos hz] at h
  obtain ⟨id, hid, h⟩ := exists_of_bind h
  obtain ⟨r, hr, h⟩ := exists_of_bind h
  cases hdid.symm.trans hid
  cases h
  refine ⟨rfl, fun x hx => ?_⟩
  have hvalue := value_of_fill hr hx
  rw [value, if_pos rfl] at hvalue
  exact (Except.ok.inj hvalue).symm

end Synthesizer

theorem Editor.eq_of_located (e : Editor) (d : FieldDirectory) (r : Record) {id x : String}
    (h : Event.located x ∈ (e.edit d r id).events) : x = id := by
  unfold edit at h
  rcases hl : e.service.locate id with f | _ | path <;> simpa [hl, Logged.log] using h

/-- While a record is made, no other file is looked for than that of its dataset. -/
theorem Expander.publisherId_of_located {z : Synthesizer} {editor : Option Editor}
    {association : Option String} {row : Row} {v : Variant} {x : String}
    (h : Event.located x ∈ (recordOf z editor association row v).events) :
    z.publisherId row = .ok x := by
  unfold recordOf at h
  rcases hz : z.synthesize row v with f | made
  · rw [hz] at h
    cases h
  · rw [hz] at h
    dsimp only at h
    by_cases hv : v.product = .virtual
    · rcases editor with _ | e
      · simp [complete, hv] at h
      · rcases hid : made.publisherId with _ | id
        · simp [complete, hv, hid] at h
        · rw [hid, events_complete _ e hv] at h
          obtain rfl := e.eq_of_located _ _ h
          exact Synthesizer.synthesize_publisherId hz hid
    · simp [complete, hv] at h

/-! ## Runs -/

namespace Engine

/-- A run looks for the files of its own rows only. -/
theorem exists_row_of_located {g : Engine} {q : CatalogQuery} {s : ParameterSet}
    {d : FieldDirectory} {items : List CursorItem} {x : String}
    (h : Event.located x ∈ (g.process q s d items).events) :
    ∃ row, Except.ok row ∈ items ∧
      g.context.publisherId (row.text? (g.table.column "id")) = .ok x := by
  rcases mem_events_process h with hread | ⟨row, association, v, hrow, hv⟩
  · cases hread
  · exact ⟨row, hrow, Expander.publisherId_of_located hv⟩

/-! ## The way back -/

open CatalogQuery (datasetKey identifierText)

/-- The identifier `did` was issued for a row, and leads to the file under `key`. -/
structure Resolves (g : Engine) (row : Row) (did key : String) : Prop where
  key_eq : datasetKey did = key
  /-- The records of the row are made with the identifier and show it. -/
  issued : g.protocol.hasAccess = true → ∀ d runId v made,
    (Synthesizer.make g.protocol g.context g.table d runId).synthesize row v = .ok made →
    made.publisherId = some did ∧
      ∀ x, made.record.get? "obs_publisher_did" = some x → x = .text did
  /-- While a record of the row is made, no other file is looked for. -/
  located : ∀ d runId editor association v x,
    Event.located x ∈ (Expander.recordOf (Synthesizer.make g.protocol g.context g.table d runId)
      editor association row v).events → x = did
  file : ∀ files, Sample.locatorOf files did = .ok (files.get? key)

/-- Requests for the identifier `did` ask the catalog for the id `key`. -/
structure Selects (g : Engine) (did key : String) : Prop where
  /-- Whatever else a request asks for, if its last PubDID is the identifier. -/
  among : ∀ before after name s q, ParameterSet.key name = ParameterSet.key "PubDID" →
    (∀ b ∈ after, ParameterSet.key b.1 ≠ ParameterSet.key name) →
    ParameterSet.read g.protocol (before ++ (name, did) :: after) = .ok s →
    CatalogQuery.compile g.protocol g.table g.context s = .ok q →
    ∃ k ∈ q.constraints, k.parameter = "PubDID" ∧ k.text = identifierText g.table key
  /-- A request for nothing else succeeds. -/
  alone : ∃ s q, ParameterSet.read g.protocol [("PubDID", did)] = .ok s ∧
    CatalogQuery.compile g.protocol g.table g.context s = .ok q ∧
    q.whereText? = some (identifierText g.table key)

variable {g : Engine} {row : Row} {did t : String}

theorem resolves_of_publisherId (ht : row.text? (g.table.column "id") = some t)
    (hdid : g.context.publisherId (some t) = .ok did) : g.Resolves row did (datasetKey t) := by
  have hmade : ∀ d runId, (Synthesizer.make g.protocol g.context g.table d runId).publisherId row =
      .ok did := by
    intro d runId
    rw [← hdid, ← ht]
    rfl
  have hkey : datasetKey did = datasetKey t := by
    obtain ⟨authority, -, h⟩ := exists_of_bind hdid
    obtain ⟨table, -, h⟩ := exists_of_bind h
    cases h
    exact CatalogQuery.datasetKey_append _ t
  refine ⟨hkey, fun hp d runId v made h => ?_, fun d runId editor association v x h => ?_,
    fun files => ?_⟩
  · exact Synthesizer.issued_of_synthesize hp (hmade d runId) h
  · exact Except.ok.inj ((Expander.publisherId_of_located h).symm.trans (hmade d runId))
  · rw [Sample.locatorOf, hkey]

/-- The identifier is declared to be a text by the protocols that issue identifiers. -/
theorem declaration_identifier {p : Protocol} (hp : p.hasAccess = true) {name : String}
    (hname : ParameterSet.key name = ParameterSet.key "PubDID") :
    (ParameterSet.declarationOf p name).kind = .text := by
  have hdeclared : (ParameterSet.declarationOf p "PubDID").kind = .text := by
    cases p with
    | cone => cases hp
    | image | spectrum => decide +kernel
  rw [← hdeclared, ParameterSet.declarationOf, ParameterSet.declarationOf,
    ParameterSet.declaration?_congr hname]
  cases p.declaration? "PubDID" with
  | none => simp only [Option.getD_none]
  | some d => simp only [Option.getD_some]

theorem selects_of_trimmed (hp : g.protocol.hasAccess = true)
    (hvalid : g.context.validate g.protocol = .ok ()) (htrim : Text.trimmed did = did)
    (hblank : did.isEmpty = false) : g.Selects did (datasetKey did) := by
  have hpub : ParameterSet.key "PubDID" = Text.lower "PubDID" := by decide +kernel
  constructor
  · intro before after name s q hname hafter hread hcompile
    have hkind := declaration_identifier hp hname
    obtain ⟨x, hx, hraw⟩ := ParameterSet.exists_of_read_last hread hafter (by simp [hkind])
      (by rw [htrim, hblank])
    have htext : s.text? "PubDID" = some did := by
      rw [hname, hpub] at hx
      rw [ParameterSet.text?, ParameterSet.get?, hx, Option.map_some, hraw, htrim]
    exact CatalogQuery.exists_identifier_of_compile hp htext hcompile
  · obtain ⟨table, htable, -⟩ := exists_of_bind hvalid
    have hheld : (Text.trimmed did).isEmpty = false := by rw [htrim, hblank]
    obtain ⟨s, hread, hplace, hother⟩ :=
      ParameterSet.exists_read_text (declaration_identifier hp rfl) hheld
    have htext : s.text? "PubDID" = some did := by
      rw [hpub] at hplace
      rw [ParameterSet.text?, ParameterSet.get?, hplace, Option.map_some, htrim]
    have hnone : ∀ name, Text.lower name ≠ "pubdid" → s.get? name = none := by
      intro name hname
      exact hother _ fun hkey => hname (hkey.trans (by decide +kernel))
    obtain ⟨q, hq, -, -, hwhere⟩ :=
      CatalogQuery.compile_of_identifier_only (t := g.table) hp htext hnone htable
    exact ⟨s, q, hread, hq, hwhere⟩

/-- The identifiers that a valid service issues for its rows; all that it takes is an authority.
They stand for the text after the last colon of the id, so for the id itself just if it has no
colon: a locator looks for the file under this key, and a request for the identifier asks for the
row with this key. -/
theorem publisherId_resolves (g : Engine) (row : Row) (t : String)
    (hvalid : g.context.validate g.protocol = .ok ())
    (ht : row.text? (g.table.column "id") = some t) :
    (g.protocol.hasAccess = true → ∃ authority, g.context.requireAuthority = .ok authority) ∧
      (datasetKey t = t ↔ ':' ∉ t.toList) ∧
      ∀ authority, g.context.requireAuthority = .ok authority →
        ∃ did, g.context.publisherId (row.text? (g.table.column "id")) = .ok did ∧
          g.Resolves row did (datasetKey t) ∧
          (g.protocol.hasAccess = true → Text.trimmed t = t → g.Selects did (datasetKey t)) := by
  refine ⟨Context.exists_authority_of_validate hvalid, CatalogQuery.datasetKey_eq_self_iff,
    fun authority hauthority => ?_⟩
  obtain ⟨table, hdid⟩ := Context.publisherId_of_authority hvalid hauthority t
  have hresolves := resolves_of_publisherId ht hdid
  refine ⟨_, ht ▸ hdid, hresolves, fun hp htrim => ?_⟩
  obtain ⟨hauthority, hne⟩ := Context.exists_of_require hauthority
  have hblank : (endingIn '#' authority ++ table ++ ":" ++ t).isEmpty = false := by
    rw [String.isEmpty_eq_false_iff]
    simp
  rw [← hresolves.key_eq]
  exact selects_of_trimmed hp hvalid (Context.trimmed_identifier hauthority hne htrim table) hblank

/-- An id with a quote in it. -/
theorem publisherId_resolves_quote :
    let g := Engine.make .image Sample.imageContext
    let row := Row.ofList [("id", .text "o'brien")]
    g.context.validate g.protocol = .ok () ∧ row.text? (g.table.column "id") = some "o'brien" ∧
      ∃ did, g.context.publisherId (row.text? (g.table.column "id")) = .ok did ∧
        did = "ivo://dal.example.org#images:o'brien" ∧ g.Resolves row did "o'brien" ∧
        g.Selects did "o'brien" ∧ identifierText g.table "o'brien" = "(id = 'o''brien')" := by
  intro g row
  have hvalid : g.context.validate g.protocol = .ok () := rfl
  have ht : row.text? (g.table.column "id") = some "o'brien" := by decide +kernel
  obtain ⟨hvalued, hcolon, hback⟩ := publisherId_resolves g row "o'brien" hvalid ht
  obtain ⟨authority, hauthority⟩ := hvalued rfl
  obtain ⟨did, hdid, hresolves, hselects⟩ := hback authority hauthority
  rw [hcolon.2 (by decide)] at hresolves hselects
  have hform : g.context.publisherId (some "o'brien") =
      .ok "ivo://dal.example.org#images:o'brien" := rfl
  have hlast : did = "ivo://dal.example.org#images:o'brien" := by
    rw [ht, hform] at hdid
    exact (Except.ok.inj hdid).symm
  exact ⟨hvalid, ht, did, hdid, hlast, hresolves, hselects rfl (by decide +kernel),
    by decide +kernel⟩

/-- Of an id with a colon, what stands before the colon does not come back. -/
theorem datasetKey_of_colon :
    let g := Engine.make .image Sample.imageContext
    let row := Row.ofList [("id", .text "a:b")]
    g.context.validate g.protocol = .ok () ∧ row.text? (g.table.column "id") = some "a:b" ∧
      ∃ did, g.context.publisherId (row.text? (g.table.column "id")) = .ok did ∧
        datasetKey did = "b" ∧ datasetKey did ≠ "a:b" := by
  intro g row
  have ht : row.text? (g.table.column "id") = some "a:b" := by decide +kernel
  have hkey : datasetKey "ivo://dal.example.org#images:a:b" = "b" := by decide +kernel
  refine ⟨rfl, ht, "ivo://dal.example.org#images:a:b", ?_, hkey, ?_⟩
  · rw [ht]
    rfl
  · rw [hkey]
    decide

end Engine

end SkyDiscovery
