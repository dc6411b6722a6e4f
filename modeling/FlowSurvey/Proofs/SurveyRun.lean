import FlowSurvey.Proofs.CatalogIndex
import FlowSurvey.Proofs.NumberedFlows
import FlowSurvey.Survey

/-!
# Runs over files

A run over files adds to an outcome what the files contribute: flows, whose
numbers go on where the outcome ends, and a diagnostic for every file that
failed.  What is added is computed here without the outcome, apart from the
number of the first flow.  Since the ids that a run hands out are all different,
merging the outcome of a run is the same as going on with the run; so the files
may be cut into parts in any way.
-/

namespace FlowSurvey

/-! ## Additions to an outcome -/

namespace Outcome

/-- An outcome to which files have been added. -/
def extend (o : Outcome) (flows : List Flow) (files : Nat) (diagnostics : List Diagnostic) :
    Outcome where
  catalog := o.catalog.insertAll flows
  filesScanned := o.filesScanned + files
  diagnostics := o.diagnostics ++ diagnostics
  next := o.next + flows.length

theorem extend_nil (o : Outcome) : o.extend [] 0 [] = o := by
  simp [extend]

theorem extend_extend
    (o : Outcome) (flows more : List Flow) (m n : Nat) (ds es : List Diagnostic) :
    (o.extend flows m ds).extend more n es =
      o.extend (flows ++ more) (m + n) (ds ++ es) := by
  simp [extend, Catalog.insertAll_append, Nat.add_assoc]

theorem flows_extend_new
    (start : Nat) {flows : List Flow} (hnodup : (flows.map (·.id)).Nodup)
    (n : Nat) (ds : List Diagnostic) :
    (({ next := start } : Outcome).extend flows n ds).catalog.flows.toList = flows :=
  Catalog.flows_ofList hnodup

theorem collisions_extend_new
    (start : Nat) {flows : List Flow} (hnodup : (flows.map (·.id)).Nodup)
    (n : Nat) (ds : List Diagnostic) :
    (({ next := start } : Outcome).extend flows n ds).catalog.collisions = [] :=
  Catalog.collisions_ofList hnodup

/-- Merging what was added to nothing is adding it. -/
theorem merge_extend
    (o : Outcome) {flows : List Flow} (hnodup : (flows.map (·.id)).Nodup)
    (n : Nat) (ds : List Diagnostic) :
    o.merge (({ next := o.next } : Outcome).extend flows n ds) = o.extend flows n ds := by
  have hflows := flows_extend_new o.next hnodup n ds
  have hcollisions := collisions_extend_new o.next hnodup n ds
  rw [merge, Catalog.merge, hflows, hcollisions, List.append_nil]
  simp [extend]

end Outcome

/-! ## What files contribute -/

namespace Survey

variable (fs : FileSystem) (platform : Platform) (root : String)

def declarationsAt (path : String) : List Declaration :=
  match readSource fs path with
  | .ok tree => declarationsOf platform (locate root path).module tree
  | .error _ => []

def flowsAt (start : Nat) (path : String) : List Flow :=
  match readSource fs path with
  | .ok tree => flowsOfFile platform root path tree start
  | .error _ => []

/-- The flows of files, numbered on from one file to the next. -/
def flowsFrom : (start : Nat) → List String → List Flow
  | _, [] => []
  | start, path :: rest =>
      let flows := flowsAt fs platform root start path
      flows ++ flowsFrom (start + flows.length) rest

def diagnosticAt? (path : String) : Option Diagnostic :=
  match readSource fs path with
  | .ok _ => none
  | .error failure => some ⟨path, failure.stage, failure.message⟩

theorem length_flowsAt (start : Nat) (path : String) :
    (flowsAt fs platform root start path).length =
      (declarationsAt fs platform root path).length := by
  unfold flowsAt declarationsAt
  cases readSource fs path with
  | ok tree => exact length_flowsOfFile platform root path tree start
  | error failure => rfl

theorem numberedFrom_flowsAt (start : Nat) (path : String) :
    NumberedFrom start (flowsAt fs platform root start path) := by
  unfold flowsAt
  cases readSource fs path with
  | ok tree => exact numberedFrom_flowsOfFile platform root path tree start
  | error failure => exact numberedFrom_nil start

theorem length_flowsFrom (start : Nat) (files : List String) :
    (flowsFrom fs platform root start files).length =
      (files.flatMap (declarationsAt fs platform root)).length := by
  induction files generalizing start with
  | nil => rfl
  | cons path rest ih =>
      simp only [flowsFrom, List.length_append, ih, length_flowsAt, List.flatMap_cons]

theorem numberedFrom_flowsFrom (start : Nat) (files : List String) :
    NumberedFrom start (flowsFrom fs platform root start files) := by
  induction files generalizing start with
  | nil => exact numberedFrom_nil start
  | cons path rest ih =>
      exact (numberedFrom_flowsAt fs platform root start path).append (ih _)

theorem flowsFrom_append (start : Nat) (first second : List String) :
    flowsFrom fs platform root start (first ++ second) =
      flowsFrom fs platform root start first ++
        flowsFrom fs platform root
          (start + (flowsFrom fs platform root start first).length) second := by
  induction first generalizing start with
  | nil => simp [flowsFrom]
  | cons path rest ih =>
      simp only [List.cons_append, flowsFrom, ih, List.append_assoc,
        List.length_append, Nat.add_assoc]

/-- Every flow of files is a declaration of one of them, with some number. -/
theorem exists_declaration_of_mem_flowsFrom
    {start : Nat} {files : List String} {flow : Flow}
    (hflow : flow ∈ flowsFrom fs platform root start files) :
    ∃ path ∈ files, ∃ tree number d, readSource fs path = .ok tree ∧
      d ∈ declarationsOf platform (locate root path).module tree ∧
      flow = .ofDeclaration platform (locate root path) number d := by
  induction files generalizing start with
  | nil => simp [flowsFrom] at hflow
  | cons path rest ih =>
      rcases List.mem_append.mp hflow with hfirst | hrest
      · unfold flowsAt at hfirst
        split at hfirst
        next tree htree =>
          obtain ⟨i, hi⟩ := List.mem_iff_getElem?.mp hfirst
          rw [getElem?_flowsOfFile] at hi
          obtain ⟨d, hd, rfl⟩ := Option.map_eq_some_iff.mp hi
          exact ⟨path, List.mem_cons_self, tree, _, d, htree, List.mem_of_getElem? hd, rfl⟩
        · simp at hfirst
      · obtain ⟨other, hother, found⟩ := ih hrest
        exact ⟨other, List.mem_cons_of_mem _ hother, found⟩

/-- Every declaration of a file that can be read is among the flows, with some number. -/
theorem exists_mem_flowsFrom
    {files : List String} {path : String} (hpath : path ∈ files) {tree : Syntax.Node}
    (hread : readSource fs path = .ok tree) {d : Declaration}
    (hd : d ∈ declarationsOf platform (locate root path).module tree) (start : Nat) :
    ∃ number,
      .ofDeclaration platform (locate root path) number d ∈
        flowsFrom fs platform root start files := by
  induction files generalizing start with
  | nil => exact absurd hpath List.not_mem_nil
  | cons first rest ih =>
      rcases List.mem_cons.mp hpath with rfl | hrest
      · obtain ⟨i, hi⟩ := List.mem_iff_getElem?.mp hd
        refine ⟨start + i, List.mem_append_left _ ?_⟩
        apply List.mem_of_getElem? (i := i)
        rw [flowsAt, hread, getElem?_flowsOfFile, hi, Option.map_some]
      · obtain ⟨number, hnumber⟩ := ih hrest _
        exact ⟨number, List.mem_append_right _ hnumber⟩

/-! ## Runs -/

theorem step_eq_extend (o : Outcome) (path : String) :
    step fs platform root o path =
      o.extend (flowsAt fs platform root o.next path) 1
        (diagnosticAt? fs path).toList := by
  unfold step flowsAt diagnosticAt?
  cases readSource fs path with
  | ok tree => simp [Outcome.extend]
  | error failure => simp [Outcome.extend]

theorem foldl_step_eq_extend (o : Outcome) (files : List String) :
    files.foldl (step fs platform root) o =
      o.extend (flowsFrom fs platform root o.next files) files.length
        (files.filterMap (diagnosticAt? fs)) := by
  induction files generalizing o with
  | nil => exact o.extend_nil.symm
  | cons path rest ih =>
      rw [List.foldl_cons, ih, step_eq_extend, Outcome.extend_extend]
      cases hdiagnostic : diagnosticAt? fs path <;>
        simp [flowsFrom, Outcome.extend, hdiagnostic, Nat.add_comm]

/-- A scan of files fails with the root, or else adds the files to nothing. -/
theorem scanFiles_eq (s : Survey) (files : List String) (start : Nat) :
    s.scanFiles files start =
      s.resolvedRoot.map fun root =>
        ({ next := start } : Outcome).extend
          (flowsFrom s.fs s.platform root start files) files.length
          (files.filterMap (diagnosticAt? s.fs)) := by
  unfold scanFiles
  cases s.resolvedRoot with
  | error failure => rfl
  | ok root =>
      exact congrArg Except.ok
        (foldl_step_eq_extend s.fs s.platform root { next := start } files)

end Survey
end FlowSurvey
