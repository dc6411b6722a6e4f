import FlowSurvey.Proofs.DeployedFlows
import FlowSurvey.Proofs.EligibleFiles
import FlowSurvey.Proofs.FileLocations
import FlowSurvey.Proofs.FoundAttributes
import FlowSurvey.Proofs.SurveyFaults

/-!
# The fields of scanned flows

The fields of a flow come from different places: from the keywords of the node that marks it,
from the scope that this node stands in, and from the path of its file.  They fit together
all the same.  What the names and the description say can be read off the keywords among the
attributes, or for want of these the description off what the body opens with; an owner that is a module is the module that the path gives; and a flow that is
no function is enclosed in one only if its owner is a class.
-/

namespace FlowSurvey

open Syntax

/--
The body of a definition opens with a constant string, which stands alone in its statement.
There may be comments in front of it.
-/
def Syntax.Node.OpensWith (definition : Node) (text : String) : Prop :=
  ∃ body comments statement rest value,
    definition.child? .body = some body ∧
    body.namedChildren = comments ++ statement :: rest ∧
    (∀ comment ∈ comments, comment.kind = .comment) ∧
    statement.kind = .expressionStatement ∧ statement.namedChildren = [value] ∧
    constant? value = some (.str text)

/-- A definition has the text that it opens with as its docstring, and a call has none. -/
structure Finding.DocumentedAt (f : Finding) (n : Node) : Prop where
  of_object : f.form = .object → f.docstring = none
  of_definition : f.form ≠ .object → ∃ definition, n.child? .definition = some definition ∧
    ∀ doc, f.docstring = some doc ↔
      ∃ text, definition.OpensWith text ∧ Text.cleanDocstring text = doc

namespace Flow

/-- The text that a flow has under a keyword, if it has the keyword with a text. -/
def keywordText? (flow : Flow) (key : String) : Option String :=
  ((Json.lookup "kwargs" flow.attributes).bind (Json.field? key)).bind Json.asString?

/-- A flow has its names and its description from the keywords, or else from what was found. -/
structure NamedAfter (flow : Flow) (marking : Marking) (f : Finding) : Prop where
  name_eq : flow.name.toList = flow.declaredName.toList.map fun c => if c = '-' then '_' else c
  symbol_eq : flow.symbol = f.symbol
  declaredName_eq : flow.declaredName = (flow.keywordText? marking.idKeyword).getD flow.symbol
  description_of_keyword : ∀ text, flow.keywordText? "description" = some text → text ≠ "" →
    flow.description = text
  description_of_docstring : (∀ text, flow.keywordText? "description" = some text → text = "") →
    flow.description = f.docstring.getD ""

/-- The owner of a flow and the function around it fit its form. -/
structure WellOwned (flow : Flow) : Prop where
  ownerKind_of_method : flow.form = .method → flow.ownerKind = .classBody
  owner_of_module : flow.ownerKind = .module → flow.owner = flow.module
  not_enclosed : flow.form = .object → flow.ownerKind = .module →
    Json.lookup "enclosing_function" flow.attributes = none

/-- The attributes of a flow are what there is to say about it, and the keywords of its marker. -/
structure AttributedTo (flow : Flow) (marker : Node) : Prop where
  names : ∀ field ∈ flow.attributes, field.1 ∈ ["enclosing_function", "kwargs", "platform"]
  kwargs_iff : (Json.lookup "kwargs" flow.attributes).isSome ↔
    ∃ arguments, marker.child? .arguments = some arguments ∧
      ∃ argument ∈ arguments.children, (constantKeyword? argument).isSome

/-- A flow says of its file where it lies below a root, and how it is imported from there. -/
structure LocatedBelow (flow : Flow) (root : String) : Prop where
  exists_file : ∃ file extension, (∀ name ∈ flow.grouping ++ [file], IsName name) ∧
    flow.sourcePath = Path.below root (flow.grouping ++ [file]) ∧
    flow.sourceRelative = "/".intercalate (flow.grouping ++ [file]) ∧
    file = flow.module ++ "." ++ extension ∧ flow.module ≠ "" ∧ '.' ∉ extension.toList
  importPath_eq : flow.importPath = ".".intercalate
    (((Path.fileName? root).map String.ofList).toList ++ flow.grouping ++ [flow.module])

end Flow

/-! ## Attributes -/

theorem Json.insertField_ne_nil (key : String) (value : Json) (fields : List (String × Json)) :
    insertField key value fields ≠ [] := by
  cases fields with
  | nil => simp [insertField]
  | cons field rest =>
      rw [insertField]
      split
      · simp
      · split <;> simp

theorem Json.fieldsOfList_eq_nil_iff {fields : List (String × Json)} :
    fieldsOfList fields = [] ↔ fields = [] := by
  rcases List.eq_nil_or_concat' fields with rfl | ⟨before, field, rfl⟩
  · simp [fieldsOfList]
  · simp [fieldsOfList, insertField_ne_nil]

theorem constantKeywords_ne_nil_iff {call : Node} :
    constantKeywords call ≠ [] ↔
      ∃ arguments, call.child? .arguments = some arguments ∧
        ∃ argument ∈ arguments.children, (constantKeyword? argument).isSome := by
  unfold constantKeywords
  split
  next arguments harguments =>
    rw [Ne, Json.fieldsOfList_eq_nil_iff, List.filterMap_eq_nil_iff]
    simp [harguments, Option.isSome_iff_ne_none]
  next harguments => simp [harguments]

section Attributes

variable (platform : Platform) (d : Declaration)

theorem lookup_kwargs_attributesOf :
    Json.lookup "kwargs" (attributesOf platform d) =
      if d.keywords.isEmpty then none else some (.obj d.keywords) := by
  unfold Json.lookup attributesOf
  cases d.enclosingFunction <;> cases d.keywords.isEmpty <;> simp [List.lookup_cons]

theorem lookup_enclosing_function_attributesOf :
    Json.lookup "enclosing_function" (attributesOf platform d) =
      d.enclosingFunction.map .str := by
  unfold Json.lookup attributesOf
  cases d.enclosingFunction <;> cases d.keywords.isEmpty <;> simp [List.lookup_cons]

theorem Flow.keywordText?_ofDeclaration (location : Location) (number : Nat) (key : String) :
    (Flow.ofDeclaration platform location number d).keywordText? key =
      stringKeyword? key d.keywords := by
  simp only [keywordText?, Flow.ofDeclaration, lookup_kwargs_attributesOf]
  by_cases hempty : d.keywords = []
  · simp [hempty, stringKeyword?, Json.lookup]
  · simp [hempty, stringKeyword?, Json.field?]

end Attributes

/-! ## Docstrings -/

theorem Json.asString?_eq_some_iff {value : Json} {text : String} :
    value.asString? = some text ↔ value = .str text := by
  cases value <;> simp [asString?]

theorem docstring?_eq_some_iff {definition : Node} {doc : String} :
    docstring? definition = some doc ↔
      ∃ text, definition.OpensWith text ∧ Text.cleanDocstring text = doc := by
  constructor
  · intro hdoc
    simp only [docstring?, Option.bind_eq_bind, Option.bind_eq_some_iff,
      Option.guard_eq_some'] at hdoc
    obtain ⟨body, hbody, statement, hfirst, _, hkind, hdoc⟩ := hdoc
    split at hdoc
    next value halone =>
      simp only [Option.bind_eq_some_iff, Option.pure_def, Option.some.injEq] at hdoc
      obtain ⟨constant, hconstant, text, htext, hclean⟩ := hdoc
      rw [Json.asString?_eq_some_iff] at htext
      rw [htext] at hconstant
      obtain ⟨hstatement, comments, rest, hchildren, hcomments⟩ :=
        List.find?_eq_some_iff_append.mp hfirst
      refine ⟨text, ⟨body, comments, statement, rest, value, hbody, hchildren, ?_, hkind, halone,
        hconstant⟩, hclean⟩
      exact fun comment hcomment => by simpa using hcomments comment hcomment
    next => simp at hdoc
  · rintro ⟨text, ⟨body, comments, statement, rest, value, hbody, hchildren, hcomments, hkind,
      halone, hconstant⟩, rfl⟩
    have hfirst : (body.namedChildren.find? fun n => n.kind != .comment) = some statement := by
      rw [List.find?_eq_some_iff_append]
      refine ⟨by simp [hkind], comments, rest, hchildren, fun comment hcomment => ?_⟩
      simp [hcomments comment hcomment]
    simp [docstring?, hbody, hfirst, hkind, halone, hconstant, Json.asString?]

/-! ## Flows of findings -/

section Findings

variable {platform : Platform} {scope : Scope} {n marker : Node} {f : Finding}
  {location : Location} {number : Nat}

theorem FoundAt.keywords_eq {marking : Marking} (hf : FoundAt marking scope n marker f) :
    f.keywords = constantKeywords marker := by
  cases hf <;> rfl

theorem FoundAt.documentedAt {marking : Marking} (hf : FoundAt marking scope n marker f) :
    f.DocumentedAt n := by
  cases hf with
  | @function function name marker hdefinition hkind hname hmarker =>
      constructor
      · intro hobject
        by_cases hbody : scope.inClassBody = true <;> simp [hbody] at hobject
      · exact fun _ => ⟨function, hdefinition, fun doc => docstring?_eq_some_iff⟩
  | object =>
      constructor
      · exact fun _ => rfl
      · exact fun hform => absurd rfl hform

theorem Flow.namedAfter_ofDeclaration :
    (Flow.ofDeclaration platform location number
      (f.declare platform.marking location.module scope)).NamedAfter platform.marking f := by
  have hdescription : (f.declare platform.marking location.module scope).description =
      ((stringKeyword? "description" f.keywords).filter (!·.isEmpty)).getD
        (f.docstring.getD "") := by
    have hkeyword : platform.marking.descriptionKeyword = "description" := by
      cases platform <;> rfl
    rw [Finding.declare, hkeyword]
    cases (stringKeyword? "description" f.keywords).filter (!·.isEmpty) <;> rfl
  constructor
  · exact toList_canonicalName _
  · rfl
  · rw [keywordText?_ofDeclaration]
    rfl
  · intro text htext hne
    rw [keywordText?_ofDeclaration] at htext
    change stringKeyword? "description" f.keywords = some text at htext
    rw [Flow.ofDeclaration, hdescription, htext]
    simp [Option.filter, hne]
  · intro hblank
    rw [keywordText?_ofDeclaration] at hblank
    change ∀ text, stringKeyword? "description" f.keywords = some text → text = "" at hblank
    rw [Flow.ofDeclaration, hdescription]
    cases htext : stringKeyword? "description" f.keywords with
    | none => rfl
    | some text => simp [Option.filter, hblank text htext]

theorem Flow.wellOwned_ofDeclaration
    (hscope : scope.Reached) (hf : FoundAt platform.marking scope n marker f) :
    (Flow.ofDeclaration platform location number
      (f.declare platform.marking location.module scope)).WellOwned := by
  have hmodule (hkind : (if scope.nearestClass.isSome then OwnerKind.classBody else .module) =
      .module) : scope.nearestClass = none := by
    cases hclass : scope.nearestClass with
    | none => rfl
    | some name => simp [hclass] at hkind
  constructor
  · intro hmethod
    cases hf with
    | object => cases hmethod
    | function =>
        by_cases hbody : scope.inClassBody = true
        · exact if_pos (hscope.isSome_nearestClass hbody)
        · simp [Flow.ofDeclaration, Finding.declare, hbody] at hmethod
  · intro hkind
    change scope.nearestClass.getD location.module = location.module
    rw [hmodule hkind, Option.getD_none]
  · intro hobject hkind
    rw [Flow.ofDeclaration, lookup_enclosing_function_attributesOf, Option.map_eq_none_iff]
    change scope.nearestFunction = none
    cases hf with
    | function =>
        simp only [Flow.ofDeclaration, Finding.declare] at hobject
        split at hobject <;> cases hobject
    | object houtside =>
        -- A function without a class around it is the innermost scope, and there are no objects.
        by_contra hfunction
        have hinside := hscope.inFunction_of_isSome (hmodule hkind)
          (Option.isSome_iff_ne_none.mpr hfunction)
        rw [houtside] at hinside
        cases hinside

theorem Flow.attributedTo_ofDeclaration (hf : FoundAt platform.marking scope n marker f) :
    (Flow.ofDeclaration platform location number
      (f.declare platform.marking location.module scope)).AttributedTo marker := by
  constructor
  · intro field hfield
    exact (names_attributesOf platform _).subset (List.mem_map_of_mem hfield)
  · rw [← constantKeywords_ne_nil_iff, ← hf.keywords_eq, Flow.ofDeclaration,
      lookup_kwargs_attributesOf]
    change (if f.keywords.isEmpty then none else some (Json.obj f.keywords)).isSome ↔ _
    cases f.keywords <;> simp

end Findings

/-! ## Flows of files -/

theorem Flow.locatedBelow_ofDeclaration
    {root : String} {cs : List Char} (hroot : root.toList = '/' :: cs) {dirs : List String}
    {file extension : String} (hnames : ∀ name ∈ dirs ++ [file], IsName name)
    (hextension : Path.HasExtension file extension) (platform : Platform) (number : Nat)
    (d : Declaration) :
    (Flow.ofDeclaration platform (locate root (Path.below root (dirs ++ [file]))) number
      d).LocatedBelow root := by
  obtain ⟨stem, hstem, hdot, rfl⟩ := hextension
  have hpath := (Path.spelledBelow_refl hroot).below hnames
  rw [List.nil_append] at hpath
  rw [locate_of_spelledBelow hpath, Path.splitExtension_toList_append_dot hstem hdot]
  exact ⟨⟨_, extension, hnames, rfl, rfl, rfl, hstem, hdot⟩, rfl⟩

namespace Survey

section Scan

variable {s : Survey} {root : String}

theorem exists_toList_of_resolvedRoot (hroot : s.resolvedRoot = .ok root) :
    ∃ cs, root.toList = '/' :: cs := by
  obtain ⟨trail, _, _, _, rfl⟩ := exists_trail_of_resolvedRoot hroot
  exact ⟨("/".intercalate (FileSystem.position trail)).toList, by simp [FileSystem.pathOf]⟩

/-- A file that the walk finds lies below the root, and its name has an extension. -/
theorem exists_names_of_mem_sourcesOf
    (hnamed : FileSystem.WellNamed s.fs.root) (hroot : s.resolvedRoot = .ok root)
    {visits : List Visit} (hvisits : s.visits = .ok visits) {path : String}
    (hpath : path ∈ sourcesOf visits) :
    ∃ dirs file extension, (∀ name ∈ dirs ++ [file], IsName name) ∧
      Path.HasExtension file extension ∧ path = Path.below root (dirs ++ [file]) := by
  rw [visits_eq hroot] at hvisits
  obtain ⟨visit, hvisit, hsource⟩ := List.mem_filterMap.mp hpath
  rcases Walk.foundedBelow_of_mem_visits hnamed hvisits hvisit with
    ⟨fault, rfl⟩ | ⟨names, size, hne, hnames, _, hfile⟩
  · cases hsource
  · obtain ⟨cs, habsolute⟩ := exists_toList_of_resolvedRoot hroot
    obtain ⟨file, extension, _, hlast, hextension, _⟩ :=
      (Walk.isSourcePath_below_iff (Path.ne_empty_of_absolute habsolute) hne hnames).mp
        (Walk.isSourcePath_of_mem_visitFile hfile)
    obtain ⟨dirs, rfl⟩ := List.getLast?_eq_some_iff.mp hlast
    refine ⟨dirs, file, extension, hnames, hextension, ?_⟩
    rcases Walk.mem_visitFile_cases hfile with ⟨rfl, _⟩ | ⟨rfl, _⟩
    · exact (Option.some.inj hsource).symm
    · cases hsource

theorem mem_sourcesOf_mixedSurvey {visits : List Visit}
    (hvisits : mixedSurvey.visits = .ok visits) : "/flows.py" ∈ sourcesOf visits := by
  have hpath : "/" ++ "flows.py" = "/flows.py" := by rfl
  rw [← hpath]
  exact mem_sourcesOf_slash rfl resolvedRoot_mixedSurvey rfl
    (List.mem_cons_of_mem _ List.mem_cons_self) (by decide) (by decide) (by decide) hvisits

/--
Every flow of a scan is well owned, located below the root, and stands in the file that its
path names, where its names, its description and its keywords come from.  The docstring that may
stand for the description is the cleaned text of what the definition there opens with.
-/
theorem scanned_flows_fit_together
    (hnamed : FileSystem.WellNamed s.fs.root) (hroot : s.resolvedRoot = .ok root) :
    ∃ o, s.scan = .ok o ∧ ∀ flow ∈ o.catalog.flows,
      flow.WellOwned ∧ flow.LocatedBelow root ∧
        ∃ tree n scope marker f, readSource s.fs flow.sourcePath = .ok tree ∧ n ∈ tree.preorder ∧
          FoundAt s.platform.marking scope n marker f ∧ flow.form = f.form ∧
          flow.NamedAfter s.platform.marking f ∧ f.DocumentedAt n ∧ flow.AttributedTo marker := by
  obtain ⟨cs, habsolute⟩ := exists_toList_of_resolvedRoot hroot
  obtain ⟨o, hscan⟩ := exists_scan hroot
  obtain ⟨visits, hvisits, hwhole⟩ := exists_scanned_of_scan hscan
  refine ⟨o, hscan, ?_⟩
  intro flow hflow
  rw [← Array.mem_toList_iff, hwhole.flows_eq hroot] at hflow
  obtain ⟨path, hpath, tree, number, d, hread, hd, rfl⟩ :=
    exists_declaration_of_mem_flowsFrom _ _ _ hflow
  obtain ⟨dirs, file, extension, hnames, hextension, rfl⟩ :=
    exists_names_of_mem_sourcesOf hnamed hroot hvisits hpath
  obtain ⟨n, hn, scope, marker, f, hscope, hf, rfl⟩ := declaredAmong_of_mem_declarationsOf hd
  refine ⟨Flow.wellOwned_ofDeclaration hscope hf,
    Flow.locatedBelow_ofDeclaration habsolute hnames hextension _ _ _, ?_⟩
  exact ⟨tree, n, scope, marker, f, hread, hn, hf, rfl, Flow.namedAfter_ofDeclaration,
    hf.documentedAt, Flow.attributedTo_ofDeclaration hf⟩

end Scan

/-- The flow of the survey of three files is found, and its fields fit together. -/
theorem scanned_flows_fit_together_mixedSurvey :
    FileSystem.WellNamed mixedSurvey.fs.root ∧ mixedSurvey.resolvedRoot = .ok "/" ∧
      ∃ o flow, mixedSurvey.scan = .ok o ∧ flow ∈ o.catalog.flows ∧
        flow.declaredName = "etl_0" ∧ flow.WellOwned ∧ flow.LocatedBelow "/" := by
  obtain ⟨o, hscan, hflows⟩ :=
    scanned_flows_fit_together wellNamed_mixedSurvey resolvedRoot_mixedSurvey
  obtain ⟨visits, hvisits, hwhole⟩ := exists_scanned_of_scan hscan
  obtain ⟨flow, hflow, hname, -⟩ :=
    exists_flow_mixedSurvey hwhole (mem_sourcesOf_mixedSurvey hvisits)
  rw [Array.mem_toList_iff] at hflow
  obtain ⟨howned, hlocated, -⟩ := hflows flow hflow
  exact ⟨wellNamed_mixedSurvey, resolvedRoot_mixedSurvey, o, flow, hscan, hflow, hname, howned,
    hlocated⟩

end Survey
end FlowSurvey
