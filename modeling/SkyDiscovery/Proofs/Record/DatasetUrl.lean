import SkyDiscovery.Proofs.Failure
import SkyDiscovery.Proofs.Record.Variant
import SkyDiscovery.Proofs.Text.FormEncoding
import SkyDiscovery.Record.Synthesis
import SkyDiscovery.Sample.Contexts

/-!
# The URLs of datasets

The URLs of a dataset say nothing but what they are made of.  The identifier and the name of the run
stand in them encoded, so neither adds an argument or changes another one; the format stands in
them as it is.  In an access URL the identifier can therefore be found again and be replaced.

* `arguments_of_urls`: the arguments that a reader of the URLs finds.
* `replaceDataset_accessUrl`: the URL in which the identifier is replaced.
-/

namespace SkyDiscovery

open Text Text.FormEncoding

/-! ## Parts of URLs -/

namespace Context

variable {c : Context} {p : Protocol} {endpoint : String}

theorem exists_endpoint_of_validate (hvalid : c.validate p = .ok ()) (hp : p.hasAccess = true) :
    ∃ endpoint, c.endpoint = .ok endpoint := by
  obtain ⟨table, -, h⟩ := exists_of_bind hvalid
  rw [if_pos hp] at h
  obtain ⟨authority, -, h⟩ := exists_of_bind h
  obtain ⟨base, hbase, h⟩ := exists_of_bind h
  obtain ⟨name, hname, -⟩ := exists_of_bind h
  rw [Context.endpoint, hbase, hname]
  exact ⟨_, rfl⟩

theorem accessUrl_eq (h : c.endpoint = .ok endpoint) (runId : Option String) (did format : String) :
    c.accessUrl runId did format = .ok (endpoint ++ "?REQUEST=accessData&FORMAT=" ++ format ++
      "&PubDID=" ++ encode did ++ runArgument runId) := by
  rw [accessUrl, h]
  rfl

theorem previewUrl_eq (h : c.endpoint = .ok endpoint) (runId : Option String) (did : String) :
    c.previewUrl runId did = .ok (endpoint ++ "?REQUEST=accessData&Preview=true&PubDID=" ++
      encode did ++ runArgument runId) := by
  rw [previewUrl, h]
  rfl

/-- Behind the identifier the URL is at its end or goes on with the next argument. -/
theorem runArgument_cases (runId : Option String) :
    (runArgument runId).toList = [] ∨ ∃ rest, (runArgument runId).toList = '&' :: rest := by
  cases runId with
  | none => exact .inl rfl
  | some r => exact .inr ⟨_, by rw [runArgument, String.toList_append]; rfl⟩

end Context

/-! ## Arguments -/

/-- The arguments of a URL, which stand behind its first `?`. -/
def argumentsOf? (url : String) : Option (List (String × String)) :=
  (cut '?' url.toList).map fun (_, query) => readArguments query

/-- The arguments by which a dataset and a run are named. -/
def identification (did : String) (runId : Option String) : List (String × String) :=
  ("PubDID", did) :: (runId.map fun r => ("RunID", r)).toList

/-- The media types of records: those of stored datasets and those of graphics. -/
inductive IsMediaType : String → Prop
  | archival (p : Protocol) : IsMediaType p.archivalMime
  | graphic {stored mime : String} (h : graphicMime? stored = some mime) : IsMediaType mime

theorem IsMediaType.mem {mime : String} (h : IsMediaType mime) :
    mime ∈ ["image/fits", "application/fits", "application/x-votable+xml", "image/gif",
      "image/jpeg", "image/png"] := by
  cases h with
  | archival p => cases p <;> decide
  | graphic h =>
    unfold graphicMime? at h
    split_ifs at h <;> cases h <;> decide

/-- What is read where a media type was written without encoding: a `+` is read as a blank, and
there is one in the media type of cone searches. -/
def mediaTypeRead (mime : String) : String :=
  if mime = Protocol.cone.archivalMime then "application/x-votable xml" else mime

theorem IsMediaType.read {mime : String} (h : IsMediaType mime) :
    decode mime = mediaTypeRead mime ∧ '&' ∉ mime.toList :=
  (by decide +kernel : ∀ mime ∈ ["image/fits", "application/fits", "application/x-votable+xml",
    "image/gif", "image/jpeg", "image/png"], decode mime = mediaTypeRead mime ∧ '&' ∉ mime.toList)
    mime h.mem

theorem readArguments_identification (did : String) (runId : Option String) :
    readArguments ("PubDID".toList ++ '=' :: (encode did).toList ++
      (Context.runArgument runId).toList) = identification did runId := by
  have hdid := amp_not_mem_encode did
  cases runId with
  | none =>
    rw [Context.runArgument, String.toList_empty, List.append_nil,
      readArguments_single (by decide) hdid, decode_encode]
    rfl
  | some r =>
    have hrun : (Context.runArgument (some r)).toList =
        '&' :: ("RunID".toList ++ '=' :: (encode r).toList) := by
      simp [Context.runArgument]
    rw [hrun, readArguments_cons (by decide) hdid, decode_encode,
      readArguments_single (by decide) (amp_not_mem_encode r), decode_encode]
    rfl

/-- The arguments of a URL that is put together as those of datasets are, with one argument of its
own. -/
theorem argumentsOf?_eq {url endpoint name value did : String} {runId : Option String}
    (hurl : url.toList = endpoint.toList ++ '?' :: ("REQUEST".toList ++ '=' :: "accessData".toList ++
      '&' :: (name.toList ++ '=' :: value.toList ++ '&' :: ("PubDID".toList ++
        '=' :: (encode did).toList ++ (Context.runArgument runId).toList))))
    (hmark : '?' ∉ endpoint.toList) (hname : ∀ c ∈ name.toList, c.isAlphanum = true)
    (hvalue : '&' ∉ value.toList) :
    argumentsOf? url =
      some (("REQUEST", "accessData") :: (name, decode value) :: identification did runId) := by
  rw [argumentsOf?, hurl, cut_append hmark, Option.map_some]
  dsimp only
  rw [readArguments_cons (by decide) (by decide), readArguments_cons hname hvalue,
    readArguments_identification, decode_of_isAlphanum (by decide)]

theorem argumentsOf?_accessUrl {endpoint mime : String} (hmark : '?' ∉ endpoint.toList)
    (hmime : '&' ∉ mime.toList) (did : String) (runId : Option String) :
    argumentsOf? (endpoint ++ "?REQUEST=accessData&FORMAT=" ++ mime ++ "&PubDID=" ++ encode did ++
      Context.runArgument runId) = some (("REQUEST", "accessData") :: ("FORMAT", decode mime) ::
        identification did runId) :=
  argumentsOf?_eq (by simp) hmark (by decide) hmime

theorem argumentsOf?_previewUrl {endpoint : String} (hmark : '?' ∉ endpoint.toList) (did : String)
    (runId : Option String) :
    argumentsOf? (endpoint ++ "?REQUEST=accessData&Preview=true&PubDID=" ++ encode did ++
      Context.runArgument runId) = some (("REQUEST", "accessData") :: ("Preview", "true") ::
        identification did runId) := by
  rw [@argumentsOf?_eq _ endpoint "Preview" "true" did runId (by simp) hmark (by decide) (by decide),
    decode_of_isAlphanum (by decide)]

/-- A reader of the URLs of a dataset finds these arguments and no others, whatever there is in the
identifier and in the name of the run.  The media type of cone searches, which publish no URLs, is
the only one that is not read as it was meant. -/
theorem arguments_of_urls (p : Protocol) (c : Context) (t : TableMapping) (d : FieldDirectory)
    (runId : Option String) (hvalid : c.validate p = .ok ()) :
    let z := Synthesizer.make p c t d runId
    (p.hasAccess = true → ∃ endpoint, c.endpoint = .ok endpoint) ∧
      ∀ endpoint, c.endpoint = .ok endpoint → '?' ∉ endpoint.toList → ∀ did,
        (∀ mime, IsMediaType mime → ∃ url, z.context.accessUrl z.runId did mime = .ok url ∧
          argumentsOf? url = some (("REQUEST", "accessData") :: ("FORMAT", mediaTypeRead mime) ::
            identification did (runId.or c.runId))) ∧
        ∃ url, z.context.previewUrl z.runId did = .ok url ∧
          argumentsOf? url = some (("REQUEST", "accessData") :: ("Preview", "true") ::
            identification did (runId.or c.runId)) := by
  intro z
  refine ⟨Context.exists_endpoint_of_validate hvalid, fun endpoint hc hmark did => ⟨?_, ?_⟩⟩
  · intro mime hmime
    refine ⟨_, Context.accessUrl_eq hc z.runId did mime, ?_⟩
    rw [argumentsOf?_accessUrl hmark hmime.read.2, hmime.read.1]
    rfl
  · exact ⟨_, Context.previewUrl_eq hc z.runId did, argumentsOf?_previewUrl hmark did z.runId⟩

/-- An identifier and a run whose names look like further arguments. -/
theorem arguments_of_urls_of_marks :
    let c := Sample.imageContext
    let z := Synthesizer.make .image c (TableMapping.ofColumns ∅) .empty (some "a&RunID=b")
    c.validate .image = .ok () ∧ IsMediaType "image/png" ∧
      (∃ url, z.context.accessUrl z.runId "x&y=z é+%#" "image/png" = .ok url ∧
        argumentsOf? url = some [("REQUEST", "accessData"), ("FORMAT", "image/png"),
          ("PubDID", "x&y=z é+%#"), ("RunID", "a&RunID=b")]) ∧
      ∃ url, z.context.previewUrl z.runId "x&y=z é+%#" = .ok url ∧
        argumentsOf? url = some [("REQUEST", "accessData"), ("Preview", "true"),
          ("PubDID", "x&y=z é+%#"), ("RunID", "a&RunID=b")] := by
  intro c z
  have hpng : graphicMime? "png" = some "image/png" := by decide +kernel
  have hurls := arguments_of_urls .image c (TableMapping.ofColumns ∅) .empty (some "a&RunID=b") rfl
  obtain ⟨haccess, hpreview⟩ :=
    hurls.2 "http://dal.example.org/services/sia/sync" rfl (by decide) "x&y=z é+%#"
  exact ⟨rfl, .graphic hpng, haccess "image/png" (.graphic hpng), hpreview⟩

/-- The format in a URL is not encoded, so the media type of cone searches comes back altered. -/
theorem format_of_cone_altered :
    let c := Sample.serviceContext "scs" "messier"
    c.validate .cone = .ok () ∧ IsMediaType Protocol.cone.archivalMime ∧
      ∃ endpoint url, c.endpoint = .ok endpoint ∧ '?' ∉ endpoint.toList ∧
        c.accessUrl none "7" Protocol.cone.archivalMime = .ok url ∧
        argumentsOf? url ≠ some [("REQUEST", "accessData"),
          ("FORMAT", Protocol.cone.archivalMime), ("PubDID", "7")] := by
  intro c
  have hc : c.endpoint = .ok "http://dal.example.org/services/scs/sync" := rfl
  have hmark : '?' ∉ "http://dal.example.org/services/scs/sync".toList := by decide
  refine ⟨rfl, .archival .cone, _, _, hc, hmark, Context.accessUrl_eq hc none "7" _, ?_⟩
  rw [argumentsOf?_accessUrl hmark (by decide)]
  decide +kernel

/-! ## Replacing the identifier -/

theorem before_identifier (did : String) (runId : Option String) :
    before '&' ((encode did).toList ++ (Context.runArgument runId).toList) =
      (encode did).toList := by
  rcases Context.runArgument_cases runId with hend | ⟨rest, hrest⟩
  · rw [hend, List.append_nil, before_of_not_mem (amp_not_mem_encode did)]
  · rw [hrest, before_append_cons (amp_not_mem_encode did)]

theorem cutWord_accessUrl {endpoint format : String} (rest : List Char)
    (hendpoint : ¬ "PubDID=".toList <:+: endpoint.toList)
    (hformat : ¬ "PubDID=".toList <:+: format.toList) :
    cutWord "PubDID=".toList
        ((endpoint ++ "?REQUEST=accessData&FORMAT=" ++ format ++ "&PubDID=").toList ++ rest) =
      some ((endpoint ++ "?REQUEST=accessData&FORMAT=" ++ format ++ "&").toList, rest) := by
  have hstretches :
      (endpoint ++ "?REQUEST=accessData&FORMAT=" ++ format ++ "&PubDID=").toList ++ rest =
        endpoint.toList ++ '?' :: ("REQUEST=accessData".toList ++ '&' ::
          ("FORMAT=".toList ++ format.toList ++ '&' :: ("PubDID=".toList ++ rest))) := by
    simp
  have hnamed : ¬ "PubDID=".toList <:+: "FORMAT=".toList ++ format.toList := by
    simpa [List.infix_cons_iff] using hformat
  rw [hstretches, cutWord_append_cons (by decide) hendpoint,
    cutWord_append_cons (by decide) (by decide), cutWord_append_cons (by decide) hnamed,
    cutWord_self (by decide)]
  simp

theorem replaceDataset?_accessUrl {endpoint format : String}
    (hendpoint : ¬ "PubDID=".toList <:+: endpoint.toList)
    (hformat : ¬ "PubDID=".toList <:+: format.toList) (did replacement : String)
    (runId : Option String) :
    let head := endpoint ++ "?REQUEST=accessData&FORMAT=" ++ format ++ "&PubDID="
    replaceDataset? (head ++ encode did ++ Context.runArgument runId) replacement =
      some (head ++ encode (String.ofList (throughLast '#' did.toList) ++ replacement) ++
        Context.runArgument runId) := by
  intro head
  have hurl : (head ++ encode did ++ Context.runArgument runId).toList =
      head.toList ++ ((encode did).toList ++ (Context.runArgument runId).toList) := by
    simp
  rw [replaceDataset?, hurl, cutWord_accessUrl _ hendpoint hformat, Option.map_some]
  simp only [before_identifier, String.ofList_toList, decode_encode, List.drop_left]
  refine congrArg some (String.toList_injective ?_)
  simp [head]

/-- What stands up to the last mark of a text: it ends in the mark, if there is anything of it, and
behind it there is no further one. -/
theorem exists_rest_throughLast (mark : Char) (s : String) :
    let kept := String.ofList (throughLast mark s.toList)
    (∃ rest, s = kept ++ rest ∧ mark ∉ rest.toList) ∧
      (kept = "" ∨ kept.toList.getLast? = some mark) := by
  intro kept
  refine ⟨⟨String.ofList (afterLast mark s.toList), ?_, ?_⟩, ?_⟩
  · rw [← String.ofList_append, throughLast_append_afterLast, String.ofList_toList]
  · rw [String.toList_ofList]
    exact not_mem_afterLast mark s.toList
  · rw [String.toList_ofList]
    exact (throughLast_cases mark s.toList).imp_left (congrArg String.ofList)

/-- Replacing the identifier in an access URL gives the access URL of the new identifier, in which
what stands up to the last `#` is kept.  All else in the URL stays as it is. -/
theorem replaceDataset_accessUrl (c : Context) (runId : Option String)
    (endpoint did format replacement : String) (hc : c.endpoint = .ok endpoint)
    (hendpoint : ¬ "PubDID=".toList <:+: endpoint.toList)
    (hformat : ¬ "PubDID=".toList <:+: format.toList) :
    let kept := String.ofList (throughLast '#' did.toList)
    ((∃ rest, did = kept ++ rest ∧ '#' ∉ rest.toList) ∧
        (kept = "" ∨ kept.toList.getLast? = some '#')) ∧
      ∃ url url', c.accessUrl runId did format = .ok url ∧
        c.accessUrl runId (kept ++ replacement) format = .ok url' ∧
        replaceDataset? url replacement = some url' ∧
        ∃ head, url = head ++ encode did ++ Context.runArgument runId ∧
          url' = head ++ encode (kept ++ replacement) ++ Context.runArgument runId := by
  intro kept
  exact ⟨exists_rest_throughLast '#' did, _, _, Context.accessUrl_eq hc runId did format,
    Context.accessUrl_eq hc runId _ format,
    replaceDataset?_accessUrl hendpoint hformat did replacement runId, _, rfl, rfl⟩

/-- The run has the look of an identifier, and the identifier of the dataset two marks. -/
theorem replaceDataset_accessUrl_of_marks :
    let c := Sample.imageContext
    let runId := some "a&b#PubDID=c"
    c.endpoint = .ok "http://dal.example.org/services/sia/sync" ∧
      ¬ "PubDID=".toList <:+: "http://dal.example.org/services/sia/sync".toList ∧
      ¬ "PubDID=".toList <:+: "image/fits".toList ∧
      ∃ url url', c.accessUrl runId "ivo://a#b#images:7" "image/fits" = .ok url ∧
        c.accessUrl runId "ivo://a#b#cut é.md" "image/fits" = .ok url' ∧
        replaceDataset? url "cut é.md" = some url' := by
  intro c runId
  have hendpoint : ¬ "PubDID=".toList <:+: "http://dal.example.org/services/sia/sync".toList := by
    decide +kernel
  have hformat : ¬ "PubDID=".toList <:+: "image/fits".toList := by decide +kernel
  have hkept : String.ofList (throughLast '#' "ivo://a#b#images:7".toList) = "ivo://a#b#" := by
    decide +kernel
  obtain ⟨-, url, url', hurl, hurl', hreplaced, -⟩ :=
    replaceDataset_accessUrl c runId "http://dal.example.org/services/sia/sync"
      "ivo://a#b#images:7" "image/fits" "cut é.md" rfl hendpoint hformat
  rw [hkept] at hurl'
  exact ⟨rfl, hendpoint, hformat, url, url', hurl, hurl', hreplaced⟩

end SkyDiscovery
