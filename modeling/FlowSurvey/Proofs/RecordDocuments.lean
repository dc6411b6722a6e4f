import FlowSurvey.Proofs.JsonDocument
import FlowSurvey.Record.Document
import FlowSurvey.Report

/-!
# Reports read back

A report in JSON lists the records that it was made from, and reading it gives
these records again.  Every kind of field is decoded as what it was encoded from,
so a record is put together from its own fields, and the text of a document is
read as the list of the values that were printed.  Doubles in the attributes of a
record may be read as others; everything else in it stays the same.
-/

namespace FlowSurvey

/-! ## Fields -/

namespace Decode

theorem field?_cons_self
    (name : String) (value : Json) (rest : List (String × Json)) (decode : Decoder α) :
    field? ((name, value) :: rest) name decode = (decode value).map some := by
  simp [field?, Json.lookup]

theorem field?_cons_of_ne
    {name other : String} (hne : name ≠ other)
    (value : Json) (rest : List (String × Json)) (decode : Decoder α) :
    field? ((other, value) :: rest) name decode = field? rest name decode := by
  have hbeq : (name == other) = false := beq_eq_false_iff_ne.mpr hne
  simp [field?, Json.lookup, List.lookup_cons, hbeq]

end Decode

theorem mapM_map_eq_ok_map
    {decode : Json → Except ε α} {encode : α → Json} {restore : α → α} {records : List α}
    (hdecode : ∀ record ∈ records, decode (encode record) = .ok (restore record)) :
    (records.map encode).mapM decode = .ok (records.map restore) := by
  induction records with
  | nil => rfl
  | cons record rest ih =>
      have hrecord := hdecode record List.mem_cons_self
      have hrest := ih fun other hmem => hdecode other (List.mem_cons_of_mem _ hmem)
      rw [List.map_cons, List.mapM_cons, hrecord, hrest]
      rfl

theorem mapM_map_eq_ok
    {decode : Json → Except ε α} {encode : α → Json} {records : List α}
    (hdecode : ∀ record ∈ records, decode (encode record) = .ok record) :
    (records.map encode).mapM decode = .ok records := by
  have hsame := @mapM_map_eq_ok_map _ _ decode encode id records hdecode
  rwa [List.map_id] at hsame

theorem Decode.list_string (texts : List String) :
    Decode.list Decode.string (.arr (texts.map .str)) = .ok texts :=
  mapM_map_eq_ok fun _ _ => rfl

theorem Decode.optionalSize_line (line : Option UInt64) :
    Decode.optionalSize ((line.map fun n => .whole (.ofUInt64 n)).getD .null) = .ok line := by
  cases line with
  | none => rfl
  | some n =>
      have hword : (Whole.ofUInt64 n).toUInt64? = some n := by
        simp [Whole.toUInt64?, Whole.ofUInt64]
      simp [Decode.optionalSize, hword]

theorem Decode.variant_form (form : Form) :
    Decode.variant Flow.forms (.str form.label) = .ok form := by
  cases form <;> rfl

theorem Decode.variant_ownerKind (kind : OwnerKind) :
    Decode.variant Flow.ownerKinds (.str kind.label) = .ok kind := by
  cases kind <;> rfl

/-! ## Records -/

theorem Flow.ofJson_toJson (flow : Flow) : Flow.ofJson flow.toJson = .ok flow := by
  have hgrouping := Decode.list_string flow.grouping
  have hline := Decode.optionalSize_line flow.line
  have hkind := Decode.variant_ownerKind flow.ownerKind
  have hform := Decode.variant_form flow.form
  simp only [Flow.toJson, Flow.ofJson, Flow.ofFields]
  -- Every look-up passes over the fields before its own.
  simp (disch := simp) only
    [Decode.field?_cons_self, Decode.field?_cons_of_ne, hgrouping, hline, hkind, hform]
  rfl

theorem Deployment.ofJson_toJson (d : Deployment) : Deployment.ofJson d.toJson = .ok d := by
  have htags := Decode.list_string d.tags
  simp only [Deployment.toJson, Deployment.ofJson, Deployment.ofFields]
  simp (disch := simp) only [Decode.field?_cons_self, Decode.field?_cons_of_ne, htags]
  rfl

namespace Json

theorem plainItems_of_forall
    {items : List Json} (hitems : ∀ item ∈ items, item.Plain) : PlainItems items := by
  induction items with
  | nil => trivial
  | cons item rest ih =>
      have hitem := hitems item List.mem_cons_self
      have hrest := ih fun other hmem => hitems other (List.mem_cons_of_mem _ hmem)
      exact ⟨hitem, hrest⟩

theorem plain_texts (texts : List String) : (Json.arr (texts.map .str)).Plain := by
  apply plainItems_of_forall
  intro item hitem
  obtain ⟨text, -, rfl⟩ := List.mem_map.mp hitem
  trivial

end Json

namespace Flow

/-- The names of the fields that a flow record is encoded with. -/
def fieldNames : List String :=
  ["child_attributes", "description", "grouping", "id", "import_path", "line_number", "module",
    "name", "obj_name", "obj_parent", "obj_parent_type", "obj_type", "original_name",
    "source_path", "source_relative"]

theorem fieldNames_ordered : fieldNames.Pairwise (· < ·) := by
  decide

theorem plain_line (flow : Flow) :
    ((flow.line.map fun n => Json.whole (.ofUInt64 n)).getD .null).Plain := by
  cases flow.line <;> trivial

end Flow

theorem Flow.plain_toJson {flow : Flow} (hattributes : (Json.obj flow.attributes).Plain) :
    flow.toJson.Plain := by
  have hnames := Flow.fieldNames_ordered
  have hgrouping := Json.plain_texts flow.grouping
  have hline := flow.plain_line
  refine ⟨List.pairwise_map.mp hnames, hattributes, trivial, hgrouping, trivial, trivial, hline, ?_⟩
  simp [Json.PlainFields, Json.Plain]

theorem Flow.ordered_toJson {flow : Flow} (hattributes : (Json.obj flow.attributes).Ordered) :
    flow.toJson.Ordered := by
  have hnames := Flow.fieldNames_ordered
  have hgrouping := (Json.plain_texts flow.grouping).ordered
  have hline := flow.plain_line.ordered
  refine ⟨List.pairwise_map.mp hnames, hattributes, trivial, hgrouping, trivial, trivial, hline, ?_⟩
  simp [Json.OrderedFields, Json.Ordered]

/-- A record is nested one level deeper than its attributes. -/
theorem Flow.nesting_toJson_le
    {flow : Flow} {bound : Nat} (hattributes : (Json.obj flow.attributes).nesting ≤ bound) :
    flow.toJson.nesting ≤ bound + 1 := by
  have hline : ((flow.line.map fun n => Json.whole (.ofUInt64 n)).getD .null).nesting = 0 := by
    cases flow.line <;> rfl
  have hgrouping : (Json.arr (flow.grouping.map .str)).nesting ≤ 1 := by
    have htexts : Json.nestingItems (flow.grouping.map .str) ≤ 0 := by
      apply Json.nestingItems_le
      intro item hitem
      obtain ⟨text, -, rfl⟩ := List.mem_map.mp hitem
      exact Nat.zero_le 0
    simp only [Json.nesting]
    omega
  simp only [Flow.toJson, Json.nesting, Json.nestingFields] at hattributes hgrouping hline ⊢
  omega

/-- A record as it is read from its text, which may change the doubles in its attributes. -/
def Flow.reread (flow : Flow) : Flow :=
  { flow with attributes := Json.rereadFields flow.attributes }

theorem Flow.reread_toJson (flow : Flow) : flow.toJson.reread = flow.reread.toJson := by
  have hgrouping := Json.arr.inj (Json.plain_texts flow.grouping).reread_eq
  have hline := flow.plain_line.reread_eq
  simp [Flow.toJson, Flow.reread, Json.reread, Json.rereadFields, hgrouping, hline]

theorem Deployment.plain_toJson {d : Deployment} (hattributes : (Json.obj d.attributes).Plain) :
    d.toJson.Plain := by
  have hnames :
      ["branch", "child_attributes", "commit_hash", "created_at", "env", "flow_id", "flow_name",
        "id", "name", "package_version", "project_name", "tags", "updated_at",
        "url"].Pairwise (· < ·) := by
    decide
  have htags := Json.plain_texts d.tags
  refine ⟨List.pairwise_map.mp hnames, trivial, hattributes, ?_⟩
  simpa [Json.PlainFields, Json.Plain] using htags

/-! ## Documents -/

theorem recordsOf_pretty_of_ordered
    (entity : Entity) {decode : Json → Except RecordFailure α} {encode : α → Json}
    {restore : α → α} {records : List α}
    (hdecode : ∀ record ∈ records, decode (encode record).reread = .ok (restore record))
    (hordered : ∀ record ∈ records, (encode record).Ordered)
    (hnesting : (Json.arr (records.map encode)).nesting < 128) :
    recordsOf entity decode (Json.pretty (.arr (records.map encode))) =
      .ok (records.map restore) := by
  have hdocument : (Json.arr (records.map encode)).Ordered := by
    apply Json.orderedItems_of_forall
    intro item hitem
    obtain ⟨record, hrecord, rfl⟩ := List.mem_map.mp hitem
    exact hordered record hrecord
  have hparse := Json.parse_pretty_of_ordered hdocument hnesting
  rw [Json.reread, Json.rereadItems_eq_map, List.map_map] at hparse
  rw [recordsOf, hparse]
  exact mapM_map_eq_ok_map hdecode

theorem recordsOf_pretty
    (entity : Entity) {decode : Json → Except RecordFailure α} {encode : α → Json}
    {records : List α} (hdecode : ∀ record ∈ records, decode (encode record) = .ok record)
    (hplain : ∀ record ∈ records, (encode record).Plain)
    (hnesting : (Json.arr (records.map encode)).nesting < 128) :
    recordsOf entity decode (Json.pretty (.arr (records.map encode))) = .ok records := by
  have hreread (record : α) (hrecord : record ∈ records) :
      decode (encode record).reread = .ok (id record) := by
    rw [(hplain record hrecord).reread_eq]
    exact hdecode record hrecord
  have hread := recordsOf_pretty_of_ordered entity hreread
    (fun record hrecord => (hplain record hrecord).ordered) hnesting
  rwa [List.map_id] at hread

/-- What is printed as JSON is read back as the records that were printed, in their order. -/
theorem reports_read_back :
    (∀ flows : List Flow,
      (∀ flow ∈ flows, (Json.obj flow.attributes).Plain) →
      (Json.arr (flows.map Flow.toJson)).nesting < 128 →
      flowsOfText (renderFlows .json flows) = .ok flows) ∧
    (∀ deployments : List Deployment,
      (∀ d ∈ deployments, (Json.obj d.attributes).Plain) →
      (Json.arr (deployments.map Deployment.toJson)).nesting < 128 →
      deploymentsOfText (renderDeployments .json deployments) = .ok deployments) := by
  constructor
  · intro flows hattributes hnesting
    have hdecode : ∀ flow ∈ flows, Flow.ofJson flow.toJson = .ok flow :=
      fun flow _ => Flow.ofJson_toJson flow
    have hplain : ∀ flow ∈ flows, flow.toJson.Plain :=
      fun flow hflow => Flow.plain_toJson (hattributes flow hflow)
    exact recordsOf_pretty .flow hdecode hplain hnesting
  · intro deployments hattributes hnesting
    have hdecode : ∀ d ∈ deployments, Deployment.ofJson d.toJson = .ok d :=
      fun d _ => Deployment.ofJson_toJson d
    have hplain : ∀ d ∈ deployments, d.toJson.Plain :=
      fun d hd => Deployment.plain_toJson (hattributes d hd)
    exact recordsOf_pretty .deployment hdecode hplain hnesting

/-- A flow with texts to be escaped, the greatest line there is, and nested attributes. -/
def attributedFlow : Flow :=
  { name := "load_\"all\"\\\x01\n"
    declaredName := "load-\"all\"\\\x01\n"
    id := "é"
    form := .method
    symbol := "load"
    ownerKind := .classBody
    owner := "Flows"
    sourcePath := "/scan/a.py"
    sourceRelative := "a.py"
    line := some 18446744073709551615
    grouping := ["", "b"]
    attributes :=
      [("limits", .arr [.whole ⟨-9223372036854775808, by decide, by decide⟩, .null, .arr []]),
       ("owner", .obj [("\x07", .bool true), ("a", .obj [])])] }

def attributedDeployment : Deployment :=
  { name := "p--main--load--dev"
    tags := ["ENV=dev", "\t"]
    attributes := [("runs", .arr [.whole ⟨0, by decide, by decide⟩, .str "\u007f"])] }

theorem reports_read_back_attributed :
    ((Json.obj attributedFlow.attributes).Plain ∧
        (Json.arr [attributedFlow.toJson]).nesting = 5 ∧
        flowsOfText (renderFlows .json [attributedFlow]) = .ok [attributedFlow]) ∧
      ((Json.obj attributedDeployment.attributes).Plain ∧
        (Json.arr [attributedDeployment.toJson]).nesting = 4 ∧
        deploymentsOfText (renderDeployments .json [attributedDeployment]) =
          .ok [attributedDeployment]) := by
  have hlimits : (Json.arr [.whole ⟨-9223372036854775808, by decide, by decide⟩, .null,
      .arr []]).Plain := ⟨trivial, trivial, trivial, trivial⟩
  have howner : (Json.obj [("\x07", .bool true), ("a", .obj [])]).Plain :=
    ⟨by decide, trivial, ⟨List.Pairwise.nil, trivial⟩, trivial⟩
  have hflow : (Json.obj attributedFlow.attributes).Plain :=
    ⟨by decide, hlimits, howner, trivial⟩
  have hdeployment : (Json.obj attributedDeployment.attributes).Plain :=
    ⟨by decide, ⟨trivial, trivial, trivial⟩, trivial⟩
  have hflows := reports_read_back.1 [attributedFlow] (by simpa using hflow) (by decide)
  have hdeployments := reports_read_back.2 [attributedDeployment]
    (by simpa using hdeployment) (by decide)
  exact ⟨⟨hflow, by decide, hflows⟩, ⟨hdeployment, by decide, hdeployments⟩⟩

end FlowSurvey
