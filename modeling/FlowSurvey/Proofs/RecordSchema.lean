import FlowSurvey.Proofs.RecordDocuments

/-!
# Records in objects that say more or less

A record is decoded from an object by the names of its fields alone.  Fields of
other names may stand beside them, whatever they hold, and are not looked at; a
field that has a default may be left out, and then the record has the default.
Where another field is left out, the first such field in the order of the record
is missed.
-/

namespace FlowSurvey

/-! ## Changes to objects -/

namespace Json

/-- Puts fields at their places. -/
def insertFields (more fields : List (String × Json)) : List (String × Json) :=
  more.foldl (fun acc field => insertField field.1 field.2 acc) fields

/-- The fields of other names than the given ones. -/
def without (names : List String) (fields : List (String × Json)) : List (String × Json) :=
  fields.filter fun field => field.1 ∉ names

/-- An object after some fields have been taken away and others put in. -/
def edit (removed : List String) (extras : List (String × Json)) : Json → Json
  | .obj fields => .obj (insertFields extras (without removed fields))
  | value => value

theorem lookup_cons (name key : String) (value : Json) (fields : List (String × Json)) :
    lookup name ((key, value) :: fields) =
      if name = key then some value else lookup name fields := by
  by_cases hname : name = key
  · subst hname
    simp [lookup]
  · have hbeq : (name == key) = false := beq_eq_false_iff_ne.mpr hname
    simp [lookup, List.lookup_cons, hbeq, hname]

theorem lookup_insertField
    (name key : String) (value : Json) (fields : List (String × Json)) :
    lookup name (insertField key value fields) =
      if name = key then some value else lookup name fields := by
  induction fields with
  | nil => exact lookup_cons name key value []
  | cons field rest ih =>
      obtain ⟨first, found⟩ := field
      rw [insertField]
      split
      next => exact lookup_cons name key value _
      next =>
        split
        next hkey =>
          subst hkey
          rw [lookup_cons, lookup_cons]
          split <;> rfl
        next hkey =>
          rw [lookup_cons, lookup_cons, ih]
          by_cases hname : name = key
          · subst hname
            simp [hkey]
          · simp [hname]

/-- What is put in under other names is not found under this one. -/
theorem lookup_insertFields_of_forall_ne
    {name : String} {more : List (String × Json)} (hmore : ∀ field ∈ more, field.1 ≠ name)
    (fields : List (String × Json)) :
    lookup name (insertFields more fields) = lookup name fields := by
  induction more generalizing fields with
  | nil => rfl
  | cons field rest ih =>
      have hfield := hmore field List.mem_cons_self
      have hrest := ih fun other hmem => hmore other (List.mem_cons_of_mem _ hmem)
      rw [insertFields, List.foldl_cons]
      exact (hrest _).trans (by rw [lookup_insertField, if_neg hfield.symm])

theorem lookup_without (name : String) (names : List String) (fields : List (String × Json)) :
    lookup name (without names fields) = if name ∈ names then none else lookup name fields := by
  induction fields with
  | nil => simp [without, lookup]
  | cons field rest ih =>
      obtain ⟨first, found⟩ := field
      rw [without] at ih ⊢
      by_cases hfirst : first ∈ names
      · rw [List.filter_cons_of_neg (by simpa using hfirst), ih, lookup_cons]
        by_cases hname : name = first
        · subst hname
          simp [hfirst]
        · simp [hname]
      · rw [List.filter_cons_of_pos (by simpa using hfirst), lookup_cons, lookup_cons, ih]
        by_cases hname : name = first
        · subst hname
          simp [hfirst]
        · simp [hname]

end Json

namespace Decode

/-- A value that is lost if its name is among those taken away. -/
def kept (removed : List String) (name : String) (value : α) : Option α :=
  if name ∈ removed then none else some value

@[simp] theorem getD_kept (removed : List String) (name : String) (value default : α) :
    (kept removed name value).getD default = if name ∈ removed then default else value := by
  unfold kept
  split <;> rfl

/-- Only what has been taken away is not found again. -/
theorem field?_edit
    {names : List String} {extras : List (String × Json)}
    (hextras : ∀ field ∈ extras, field.1 ∉ names) (removed : List String)
    (fields : List (String × Json)) (name : String) (decode : Decoder α) (hname : name ∈ names) :
    field? (Json.insertFields extras (Json.without removed fields)) name decode =
      if name ∈ removed then .ok none else field? fields name decode := by
  have hother : ∀ field ∈ extras, field.1 ≠ name := by
    rintro field hfield rfl
    exact hextras field hfield hname
  have hlookup := Json.lookup_insertFields_of_forall_ne hother (Json.without removed fields)
  rw [field?, hlookup, Json.lookup_without]
  by_cases hremoved : name ∈ removed
  · simp [hremoved]
  · simp only [if_neg hremoved]
    rfl

theorem ite_ok_eq_kept (removed : List String) (name : String) (value : α) :
    (if name ∈ removed then .ok none else .ok (some value) : Except Mismatch (Option α)) =
      .ok (kept removed name value) := by
  unfold kept
  split <;> rfl

/-- A record, unless one of the fields that it needs has been taken away. -/
def complete (removed : List String) (needed : List String) (record : α) : Except Mismatch α :=
  match needed.find? (· ∈ removed) with
  | some name => .error (.missingField name)
  | none => .ok record

@[simp] theorem complete_nil (removed : List String) (record : α) :
    complete removed [] record = .ok record := rfl

/-- Fields are missed one after another, in the order in which they are needed. -/
theorem required_kept_bind
    (removed : List String) (name : String) (value : α) (needed : List String) (record : β)
    {next : α → Except Mismatch β} (hnext : next value = complete removed needed record) :
    (required name (kept removed name value) >>= next) =
      complete removed (name :: needed) record := by
  by_cases hname : name ∈ removed
  · simp [kept, complete, hname, required, bind, Except.bind]
  · have hfound : required name (kept removed name value) = .ok value := by
      simp [kept, hname, required]
    have hskip : complete removed (name :: needed) record = complete removed needed record := by
      simp [complete, hname]
    rw [hfound, hskip]
    exact hnext

end Decode

/-! ## Flows -/

namespace Flow

/-- The fields that a record cannot do without, in the order in which they are missed. -/
def neededNames : List String :=
  ["name", "original_name", "description", "id", "source_path", "source_relative"]

def defaultedNames : List String :=
  ["obj_type", "obj_name", "obj_parent_type", "obj_parent", "module", "import_path", "line_number",
    "grouping", "child_attributes"]

/-- A record with the defaults in the fields of some names. -/
def withDefaults (names : List String) (flow : Flow) : Flow :=
  { flow with
    form := if "obj_type" ∈ names then .function else flow.form
    symbol := if "obj_name" ∈ names then "" else flow.symbol
    ownerKind := if "obj_parent_type" ∈ names then .module else flow.ownerKind
    owner := if "obj_parent" ∈ names then "" else flow.owner
    module := if "module" ∈ names then "" else flow.module
    importPath := if "import_path" ∈ names then "" else flow.importPath
    line := if "line_number" ∈ names then none else flow.line
    grouping := if "grouping" ∈ names then [] else flow.grouping
    attributes := if "child_attributes" ∈ names then [] else flow.attributes }

theorem ofJson_edit_toJson
    (flow : Flow) (removed : List String) {extras : List (String × Json)}
    (hextras : ∀ field ∈ extras, field.1 ∉ neededNames ++ defaultedNames) :
    Flow.ofJson (flow.toJson.edit removed extras) =
      (Decode.complete removed neededNames (flow.withDefaults removed)).mapError
        (.mismatched .flow) := by
  have hgrouping := Decode.list_string flow.grouping
  have hline := Decode.optionalSize_line flow.line
  have hkind := Decode.variant_ownerKind flow.ownerKind
  have hform := Decode.variant_form flow.form
  simp only [Flow.toJson, Json.edit, Flow.ofJson, Flow.ofFields]
  simp (disch := decide) only [Decode.field?_edit hextras removed]
  simp (disch := simp) only
    [Decode.field?_cons_self, Decode.field?_cons_of_ne, hgrouping, hline, hkind, hform,
      Decode.string, Decode.fields, Except.map, Decode.ite_ok_eq_kept]
  refine congrArg (Except.mapError _) ?_
  -- One step for each field that is needed.
  iterate 6 refine Decode.required_kept_bind removed _ _ _ _ ?_
  simp only [Decode.getD_kept]
  rfl

theorem exists_fields_toJson (flow : Flow) :
    ∃ fields, flow.toJson = .obj fields ∧
      (fields.map Prod.fst).Perm (neededNames ++ defaultedNames) := by
  refine ⟨_, rfl, ?_⟩
  simp only [List.map]
  decide

theorem ofJson_of_ne_obj {value : Json} (hvalue : ∀ fields, value ≠ .obj fields) :
    Flow.ofJson value = .error (.notAnObject .flow value.kindLabel) := by
  cases value with
  | obj fields => exact absurd rfl (hvalue fields)
  | _ => rfl

end Flow

/-! ## Deployments -/

namespace Deployment

/-- The fields that a record cannot do without, in the order in which they are missed. -/
def neededNames : List String :=
  ["name", "project_name", "branch", "flow_name", "env", "commit_hash", "package_version", "tags",
    "id", "created_at", "updated_at", "flow_id", "url"]

def defaultedNames : List String :=
  ["child_attributes"]

/-- A record with the default in its only field that has one, if the field is named. -/
def withDefaults (names : List String) (d : Deployment) : Deployment :=
  { d with attributes := if "child_attributes" ∈ names then [] else d.attributes }

theorem ofJson_edit_toJson
    (d : Deployment) (removed : List String) {extras : List (String × Json)}
    (hextras : ∀ field ∈ extras, field.1 ∉ neededNames ++ defaultedNames) :
    Deployment.ofJson (d.toJson.edit removed extras) =
      (Decode.complete removed neededNames (d.withDefaults removed)).mapError
        (.mismatched .deployment) := by
  have htags := Decode.list_string d.tags
  simp only [Deployment.toJson, Json.edit, Deployment.ofJson, Deployment.ofFields]
  simp (disch := decide) only [Decode.field?_edit hextras removed]
  simp (disch := simp) only
    [Decode.field?_cons_self, Decode.field?_cons_of_ne, htags, Decode.string, Decode.fields,
      Except.map, Decode.ite_ok_eq_kept]
  refine congrArg (Except.mapError _) ?_
  iterate 13 refine Decode.required_kept_bind removed _ _ _ _ ?_
  simp only [Decode.getD_kept]
  rfl

theorem exists_fields_toJson (d : Deployment) :
    ∃ fields, d.toJson = .obj fields ∧
      (fields.map Prod.fst).Perm (neededNames ++ defaultedNames) := by
  refine ⟨_, rfl, ?_⟩
  simp only [List.map]
  decide

theorem ofJson_of_ne_obj {value : Json} (hvalue : ∀ fields, value ≠ .obj fields) :
    Deployment.ofJson value = .error (.notAnObject .deployment value.kindLabel) := by
  cases value with
  | obj fields => exact absurd rfl (hvalue fields)
  | _ => rfl

end Deployment

/-! ## Schemas -/

/--
Records are written with certain fields.  They are read back when other fields are
added and fields with a default are taken away, which then have the default; it is
an error to take away another one, and nothing but an object is a record.
-/
structure FollowsSchema
    (entity : Entity) (encode : α → Json) (decode : Json → Except RecordFailure α)
    (needed defaulted : List String) (withDefaults : List String → α → α) : Prop where
  writes : ∀ record, ∃ fields,
    encode record = .obj fields ∧ (fields.map Prod.fst).Perm (needed ++ defaulted)
  reads : ∀ record removed (extras : List (String × Json)),
    (∀ field ∈ extras, field.1 ∉ needed ++ defaulted) → (∀ name ∈ removed, name ∈ defaulted) →
      decode ((encode record).edit removed extras) = .ok (withDefaults removed record)
  misses : ∀ record removed (extras : List (String × Json)),
    (∀ field ∈ extras, field.1 ∉ needed ++ defaulted) → (∃ name ∈ removed, name ∈ needed) →
      ∃ name ∈ removed, name ∈ needed ∧
        decode ((encode record).edit removed extras) =
          .error (.mismatched entity (.missingField name))
  refuses : ∀ value : Json, (∀ fields, value ≠ .obj fields) →
    decode value = .error (.notAnObject entity value.kindLabel)

theorem Decode.complete_of_forall_not_mem
    {removed needed : List String} (hkept : ∀ name ∈ removed, name ∉ needed) (record : α) :
    complete removed needed record = .ok record := by
  have hnone : needed.find? (· ∈ removed) = none := by
    rw [List.find?_eq_none]
    intro name hneeded hremoved
    exact hkept name (by simpa using hremoved) hneeded
  rw [complete, hnone]

theorem Decode.exists_complete_eq_error
    {removed needed : List String} {name : String} (hremoved : name ∈ removed)
    (hneeded : name ∈ needed) (record : α) :
    ∃ missed ∈ removed, missed ∈ needed ∧
      complete removed needed record = .error (.missingField missed) := by
  cases hfind : needed.find? (· ∈ removed) with
  | none => exact absurd hremoved (by simpa using List.find?_eq_none.mp hfind name hneeded)
  | some missed =>
      have hmissed : missed ∈ removed := by simpa using List.find?_some hfind
      exact ⟨missed, hmissed, List.mem_of_find?_eq_some hfind, by rw [complete, hfind]⟩

/-- It is enough to know what is read after any change. -/
theorem FollowsSchema.of_complete
    {entity : Entity} {encode : α → Json} {decode : Json → Except RecordFailure α}
    {needed defaulted : List String} {withDefaults : List String → α → α}
    (hwrites : ∀ record, ∃ fields,
      encode record = .obj fields ∧ (fields.map Prod.fst).Perm (needed ++ defaulted))
    (hdisjoint : ∀ name ∈ defaulted, name ∉ needed)
    (hedit : ∀ record removed (extras : List (String × Json)),
      (∀ field ∈ extras, field.1 ∉ needed ++ defaulted) →
        decode ((encode record).edit removed extras) =
          (Decode.complete removed needed (withDefaults removed record)).mapError
            (.mismatched entity))
    (hrefuses : ∀ value : Json, (∀ fields, value ≠ .obj fields) →
      decode value = .error (.notAnObject entity value.kindLabel)) :
    FollowsSchema entity encode decode needed defaulted withDefaults where
  writes := hwrites
  reads := by
    intro record removed extras hextras hremoved
    have hkept : ∀ name ∈ removed, name ∉ needed :=
      fun name hname => hdisjoint name (hremoved name hname)
    rw [hedit record removed extras hextras, Decode.complete_of_forall_not_mem hkept]
    rfl
  misses := by
    rintro record removed extras hextras ⟨name, hname, hneeded⟩
    obtain ⟨missed, hmissed, hmissedNeeded, hcomplete⟩ :=
      Decode.exists_complete_eq_error hname hneeded (withDefaults removed record)
    refine ⟨missed, hmissed, hmissedNeeded, ?_⟩
    rw [hedit record removed extras hextras, hcomplete]
    rfl
  refuses := hrefuses

/-- Six fields of a flow are needed, and all fields of a deployment but its attributes. -/
theorem records_follow_schemas :
    FollowsSchema .flow Flow.toJson Flow.ofJson Flow.neededNames Flow.defaultedNames
        Flow.withDefaults ∧
      FollowsSchema .deployment Deployment.toJson Deployment.ofJson Deployment.neededNames
        Deployment.defaultedNames Deployment.withDefaults := by
  constructor
  · exact .of_complete Flow.exists_fields_toJson (by decide)
      (fun flow removed _ hextras => flow.ofJson_edit_toJson removed hextras)
      (fun _ hvalue => Flow.ofJson_of_ne_obj hvalue)
  · exact .of_complete Deployment.exists_fields_toJson (by decide)
      (fun d removed _ hextras => d.ofJson_edit_toJson removed hextras)
      (fun _ hvalue => Deployment.ofJson_of_ne_obj hvalue)

/-- What else stands in the object is not looked at, here a field beside the attributes. -/
example :
    Flow.ofJson (attributedFlow.toJson.edit ["line_number", "obj_type"] [("owner", .null)]) =
      .ok { attributedFlow with line := none, form := .function } := by
  rfl

end FlowSurvey
