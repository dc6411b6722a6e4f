import FlowSurvey.Proofs.DeclarationSearch

/-!
# Joined lines in decorators

A line may be joined to the next one between the sign of a decorator and its
expression.  The search takes the joined line for the expression and so passes
over the decorator.  It never finds more than the expressions declare, and the
main result says exactly when it finds less, or finds it with other keywords.
-/

namespace FlowSurvey

open Syntax

/-! ## Readings of decorators -/

section

variable (marking : Marking) (module : String)

/-- What applies a name is seen behind the sign of a decorator only if nothing is between. -/
theorem expression?_of_behindSign?
    {name : String} {decorator n : Node}
    (hn : behindSign? decorator = some n) (hname : Applies name n) :
    expression? decorator = some n := by
  have htrivia : n.kind.isTrivia = false := by
    rcases hname with (⟨hkind, _⟩ | ⟨hkind, _, _⟩) | ⟨hkind, _, _⟩ <;> rw [hkind] <;> rfl
  unfold behindSign? at hn
  obtain ⟨rest, hrest⟩ := List.head?_eq_some_iff.mp hn
  simp [expression?, hrest, htrivia]

theorem isSome_markerKeywords?_expression?
    {decorated : Node} (hsome : (markerKeywords? behindSign? marking decorated).isSome) :
    (markerKeywords? expression? marking decorated).isSome := by
  simp only [markerKeywords?, Option.isSome_map, List.find?_isSome, List.mem_filterMap,
    decide_eq_true_eq] at hsome ⊢
  obtain ⟨n, ⟨decorator, hdecorator, hn⟩, hname⟩ := hsome
  exact ⟨n, ⟨decorator, hdecorator, expression?_of_behindSign? hn hname⟩, hname⟩

theorem isSome_declared?_expression?
    {s : Site} (hsome : (s.declared? behindSign? marking module).isSome) :
    (s.declared? expression? marking module).isSome := by
  unfold Site.declared? at hsome ⊢
  split at hsome
  next hkind =>
    rw [Option.isSome_map] at hsome ⊢
    cases hdecorated : s.decorated? with
    | none => simp [hdecorated] at hsome
    | some decorated =>
        rw [hdecorated, Option.bind_some] at hsome
        exact isSome_markerKeywords?_expression? marking hsome
  next => exact hsome
  next => simp at hsome

theorem declared?_eq_iff {first second : Node → Option Node} {s : Site} :
    s.declared? first marking module = s.declared? second marking module ↔
      (s.node.kind = .functionDefinition → ∀ decorated, s.decorated? = some decorated →
        markerKeywords? first marking decorated =
          markerKeywords? second marking decorated) := by
  by_cases hkind : s.node.kind = .functionDefinition
  · simp only [Site.declared?, hkind, forall_const]
    -- The declaration keeps the keywords, so different keywords make it different.
    rw [(Option.map_injective fun _ _ heq => congrArg Declaration.keywords heq).eq_iff]
    cases s.decorated? with
    | none => simp
    | some decorated => simp
  · have hsame : s.declared? first marking module = s.declared? second marking module := by
      unfold Site.declared?
      split
      next h => exact absurd h hkind
      next => rfl
      next => rfl
    simp [hsame, hkind]

private theorem filterMap_eq_filterMap_iff
    {α β : Type} {f g : α → Option β} {xs : List α}
    (hsome : ∀ x ∈ xs, (f x).isSome → (g x).isSome) :
    xs.filterMap f = xs.filterMap g ↔ ∀ x ∈ xs, f x = g x := by
  induction xs with
  | nil => simp
  | cons x rest ih =>
      have hrest : ∀ y ∈ rest, (f y).isSome → (g y).isSome :=
        fun y hy => hsome y (List.mem_cons_of_mem x hy)
      have hx := hsome x List.mem_cons_self
      cases hf : f x with
      | none =>
          cases hg : g x with
          | none => simp [hf, hg, ih hrest]
          | some b =>
              have hle : (rest.filterMap f).length ≤ (rest.filterMap g).length := by
                rw [List.length_filterMap_eq_countP, List.length_filterMap_eq_countP]
                exact List.countP_mono_left hrest
              have hne : rest.filterMap f ≠ b :: rest.filterMap g := by
                intro heq
                have := congrArg List.length heq
                simp at this
                omega
              simp [hf, hg, hne]
      | some a =>
          obtain ⟨b, hg⟩ := Option.isSome_iff_exists.mp (hx (by simp [hf]))
          simp [hf, hg, ih hrest]

/--
The search finds what the sites declare if the decorators are read as far as what
is first behind their signs.  It finds all that the expressions of decorators
declare exactly if, for every decorated function, this makes no difference to the
keywords of the first marker.
-/
theorem declarationsOf_eq_declared_iff
    (platform : Platform) (module : String) {tree : Node}
    (htree : tree.StatementsInBodies) :
    (tree.sites []).map Site.node = tree.preorder ∧
      declarationsOf platform module tree =
        (tree.sites []).filterMap (Site.declared? behindSign? platform.marking module) ∧
      (declarationsOf platform module tree =
          (tree.sites []).filterMap
            (Site.declared? expression? platform.marking module) ↔
        ∀ s ∈ tree.sites [], s.node.kind = .functionDefinition →
          ∀ decorated, s.decorated? = some decorated →
            markerKeywords? behindSign? platform.marking decorated =
              markerKeywords? expression? platform.marking decorated) := by
  have hsearch := declarationsOf_eq_filterMap_sites module platform htree
  refine ⟨tree.map_node_sites [], hsearch, ?_⟩
  rw [hsearch, filterMap_eq_filterMap_iff
    fun s _ => isSome_declared?_expression? platform.marking module]
  simp only [declared?_eq_iff]

end

/-! ### Examples -/

private def nameAt (row column : Nat) (text : String) : Node :=
  .leaf .identifier ⟨row, column⟩ text

/-- The assignment of a call of a constructor. -/
private def constructionAt (row column : Nat) (target : String) : Node :=
  .branch .assignment ⟨row, column⟩
    [(nameAt row column target).withRole .left,
      (Node.branch .call ⟨row, column⟩
        [(nameAt row column "DAG").withRole .function]).withRole .right]

private theorem statementsInBodies_constructionAt (row column : Nat) (target : String) :
    (constructionAt row column target).StatementsInBodies := by
  apply Node.StatementsInBodies.assignment rfl
  simp [constructionAt, nameAt, Node.branch, Node.leaf, Node.withRole, Node.preorder,
    Node.preorderAll, statementKinds]

private def methodBody : Node :=
  (Node.branch .block ⟨5, 8⟩ [constructionAt 5 8 "inner"]).withRole .body

private def methodNode : Node :=
  (Node.branch .functionDefinition ⟨4, 4⟩
    [(nameAt 4 8 "run").withRole .name, .branch .parameters ⟨4, 11⟩ [nameAt 4 12 "self"],
      methodBody]).withRole .definition

private def decoratedMethod : Node :=
  .branch .decoratedDefinition ⟨2, 4⟩
    [.branch .decorator ⟨2, 4⟩ [.leaf .token ⟨2, 4⟩ "@", nameAt 2 5 "task"],
      .branch .decorator ⟨3, 4⟩ [.leaf .token ⟨3, 4⟩ "@", nameAt 3 5 "dag"], methodNode]

private def etlBody : Node :=
  (Node.branch .block ⟨1, 4⟩ [constructionAt 1 4 "nightly", decoratedMethod]).withRole .body

/-- A class in which a name is given a flow and a method is one. -/
def classTree : Node :=
  .branch .classDefinition ⟨0, 0⟩ [(nameAt 0 6 "Etl").withRole .name, etlBody]

theorem statementsInBodies_classTree : classTree.StatementsInBodies := by
  have hmethodBody : methodBody.StatementsInBodies := by
    apply Node.StatementsInBodies.other (by decide) (by decide)
    exact List.forall_mem_singleton.mpr (statementsInBodies_constructionAt 5 8 "inner")
  have hmethod : methodNode.StatementsInBodies :=
    .function rfl rfl ⟨rfl, [_, _], [], rfl, by decide⟩ hmethodBody
  have hdecorated : decoratedMethod.StatementsInBodies :=
    .decorated rfl ⟨rfl, [_, _], [], rfl, by decide⟩ hmethod
  have hclassBody : etlBody.StatementsInBodies := by
    apply Node.StatementsInBodies.other (by decide) (by decide)
    intro child hchild
    rcases List.mem_pair.mp hchild with rfl | rfl
    · exact statementsInBodies_constructionAt 1 4 "nightly"
    · exact hdecorated
  exact .class rfl rfl ⟨rfl, [_], [], rfl, by decide⟩ hclassBody

theorem declarationsOf_eq_declared_classTree :
    classTree.StatementsInBodies ∧
      (declarationsOf .airflow "flows" classTree).map (·.symbol) = ["nightly", "run"] ∧
      declarationsOf .airflow "flows" classTree =
        (classTree.sites []).filterMap
          (Site.declared? behindSign? Platform.airflow.marking "flows") :=
  ⟨statementsInBodies_classTree, rfl,
    (declarationsOf_eq_declared_iff .airflow "flows" statementsInBodies_classTree).2.1⟩

private def tokenAt (row column : Nat) (text : String) : Node :=
  .leaf .token ⟨row, column⟩ text

private def passBody : Node :=
  (Node.branch .block ⟨3, 4⟩ [.branch .passStatement ⟨3, 4⟩ [tokenAt 3 4 "pass"]]).withRole
    .body

private def joinedLineFunction : Node :=
  (Node.branch .functionDefinition ⟨2, 0⟩
    [tokenAt 2 0 "def", (nameAt 2 4 "f").withRole .name,
      .branch .parameters ⟨2, 5⟩ [tokenAt 2 5 "(", tokenAt 2 6 ")"], tokenAt 2 7 ":",
      passBody]).withRole .definition

/-- A flow with a joined line between the sign and the name of its decorator. -/
def joinedLineTree : Node :=
  .branch .module ⟨0, 0⟩
    [.branch .decoratedDefinition ⟨0, 0⟩
      [.branch .decorator ⟨0, 0⟩
          [tokenAt 0 0 "@", .leaf .lineContinuation ⟨0, 1⟩ "\\\n", nameAt 1 0 "flow"],
        joinedLineFunction]]

theorem statementsInBodies_joinedLineTree : joinedLineTree.StatementsInBodies := by
  have hpassBody : passBody.StatementsInBodies := by
    refine .other (by decide) (by decide) (List.forall_mem_singleton.mpr ?_)
    refine .other (by decide) (by decide) (List.forall_mem_singleton.mpr ?_)
    exact .token rfl rfl
  have hfunction : joinedLineFunction.StatementsInBodies :=
    .function rfl rfl ⟨rfl, [_, _, _, _], [], rfl, by decide⟩ hpassBody
  refine .other (by decide) (by decide) (List.forall_mem_singleton.mpr ?_)
  exact .decorated rfl ⟨rfl, [_], [], rfl, by decide⟩ hfunction

theorem not_declarationsOf_eq_declared :
    ¬ ∀ (platform : Platform) (module : String) (tree : Node), tree.StatementsInBodies →
      declarationsOf platform module tree =
        (tree.sites []).filterMap
          (Site.declared? expression? platform.marking module) := by
  intro hall
  have hlength := congrArg List.length
    (hall .prefect "example" joinedLineTree statementsInBodies_joinedLineTree)
  exact absurd hlength (by decide)

end FlowSurvey
