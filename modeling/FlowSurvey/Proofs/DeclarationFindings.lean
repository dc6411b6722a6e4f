import FlowSurvey.Declaration
import Mathlib.Data.Option.Basic

/-!
# Findings behind declarations

Every declaration that the search gives is a finding at some node of the tree, declared in
the scope that was handed down to there.  These scopes are not arbitrary: each comes about
by entering classes and functions from the top.  So the statements of a class body have a
class around them, and where no class is around, a function around them is the innermost.
-/

namespace FlowSurvey

open Syntax

/-! ## Scopes -/

namespace Scope

/-- A scope that is entered from the top, through classes and functions. -/
inductive Reached : Scope → Prop
  | top : Reached .top
  | enterClass {scope : Scope} (hscope : Reached scope) (name : String) :
      Reached (scope.enterClass name)
  | enterFunction {scope : Scope} (hscope : Reached scope) (name : String) :
      Reached (scope.enterFunction name)

variable {scope : Scope}

theorem Reached.isSome_nearestClass
    (hscope : scope.Reached) (hbody : scope.inClassBody = true) : scope.nearestClass.isSome := by
  cases hscope with
  | top => simp [Scope.top, inClassBody] at hbody
  | enterClass => rfl
  | enterFunction => simp [Scope.enterFunction, inClassBody] at hbody

theorem Reached.inFunction_of_isSome
    (hscope : scope.Reached) (hclass : scope.nearestClass = none)
    (hfunction : scope.nearestFunction.isSome) : scope.inFunction = true := by
  cases hscope with
  | top => simp [Scope.top] at hfunction
  | enterClass => simp [Scope.enterClass] at hclass
  | enterFunction => rfl

end Scope

/-! ## Findings -/

section

variable {marking : Marking} {module : String}

/-- What is found at a node in some scope, and the node that marks it as a flow. -/
inductive FoundAt (marking : Marking) (scope : Scope) (n : Node) : Node → Finding → Prop
  | function {function name marker : Node} (hdefinition : n.child? .definition = some function)
      (hkind : function.kind = .functionDefinition) (hname : function.child? .name = some name)
      (hmarker : marker? marking n = some marker) :
      FoundAt marking scope n marker
        ⟨if scope.inClassBody then .method else .function, name.text, constantKeywords marker,
          docstring? function, function.start.row + 1⟩
  | object {left call : Node} {constructor : String} (hscope : scope.inFunction = false)
      (hconstructor : marking.constructor? = some constructor)
      (hleft : n.child? .left = some left) (hright : n.child? .right = some call)
      (hcall : calleeName? call = some constructor) :
      FoundAt marking scope n call
        ⟨.object, left.text, constantKeywords call, none, n.start.row + 1⟩

theorem exists_foundAt_of_decorated?
    {scope : Scope} {n : Node} {f : Finding} (hf : decorated? marking scope n = some f) :
    ∃ marker, FoundAt marking scope n marker f := by
  simp only [decorated?, Option.bind_eq_bind, Option.bind_eq_some_iff, Option.guard_eq_some',
    Option.pure_def] at hf
  obtain ⟨function, hdefinition, _, hkind, name, hname, marker, hmarker, hf⟩ := hf
  obtain rfl := Option.some.inj hf
  exact ⟨marker, .function hdefinition hkind hname hmarker⟩

theorem exists_foundAt_of_instantiated?
    {scope : Scope} (hscope : scope.inFunction = false) {n : Node} {f : Finding}
    (hf : instantiated? marking n = some f) : ∃ call, FoundAt marking scope n call f := by
  simp only [instantiated?, Option.bind_eq_bind, Option.bind_eq_some_iff, Option.guard_eq_some',
    Option.pure_def] at hf
  obtain ⟨constructor, hconstructor, _, _, left, hleft, _, _, call, hright, _, hcall, hf⟩ := hf
  obtain rfl := Option.some.inj hf
  exact ⟨call, .object hscope hconstructor hleft hright hcall⟩

/-- A declaration of what is found at one of the nodes, in a scope that is entered from the top. -/
def DeclaredAmong (marking : Marking) (module : String) (nodes : List Node) (d : Declaration) :
    Prop :=
  ∃ n ∈ nodes, ∃ (scope : Scope) (marker : Node) (f : Finding),
    scope.Reached ∧ FoundAt marking scope n marker f ∧ d = f.declare marking module scope

theorem DeclaredAmong.mono
    {nodes more : List Node} {d : Declaration} (hd : DeclaredAmong marking module nodes d)
    (hsub : nodes ⊆ more) : DeclaredAmong marking module more d := by
  obtain ⟨n, hn, found⟩ := hd
  exact ⟨n, hsub hn, found⟩

theorem declaredAmong_of_mem_toList
    {scope : Scope} (hscope : scope.Reached) {n : Node} {nodes : List Node} (hn : n ∈ nodes)
    {found : Option Finding} {d : Declaration}
    (hfound : ∀ f, found = some f → ∃ marker, FoundAt marking scope n marker f)
    (hd : d ∈ (found.map (·.declare marking module scope)).toList) :
    DeclaredAmong marking module nodes d := by
  obtain ⟨f, hf, rfl⟩ := Option.map_eq_some_iff.mp (Option.mem_toList.mp hd)
  obtain ⟨marker, hmarker⟩ := hfound f hf
  exact ⟨n, hn, scope, marker, f, hscope, hmarker, rfl⟩

mutual

/-- By induction on the tree, with any scope that is entered from the top. -/
theorem declaredAmong_of_mem_declarations {d : Declaration} : ∀ (n : Node) {scope : Scope},
    scope.Reached → d ∈ declarations marking module scope n →
      DeclaredAmong marking module n.preorder d
  | ⟨kind, role, start, text, children⟩, scope, hscope, hd => by
      have hself : (⟨kind, role, start, text, children⟩ : Node) ∈
          Node.preorder ⟨kind, role, start, text, children⟩ := List.mem_cons_self
      have hbelow {d : Declaration}
          (hd : DeclaredAmong marking module (Node.preorderAll children) d) :
          DeclaredAmong marking module (Node.preorder ⟨kind, role, start, text, children⟩) d :=
        hd.mono (List.subset_cons_self _ _)
      unfold declarations at hd
      dsimp only at hd
      split at hd
      case h_1 => simp at hd
      case h_2 =>
        rcases List.mem_append.mp hd with hhere | hinner
        · exact declaredAmong_of_mem_toList hscope hself
            (fun _ => exists_foundAt_of_decorated?) hhere
        · exact hbelow (declaredAmong_of_mem_declarationsIn .definition children hscope hinner)
      case h_3 =>
        split at hd
        next name _ =>
          exact hbelow (declaredAmong_of_mem_declarationsIn .body children
            (hscope.enterFunction name.text) hd)
        · simp at hd
      case h_4 =>
        split at hd
        next name _ =>
          exact hbelow (declaredAmong_of_mem_declarationsIn .body children
            (hscope.enterClass name.text) hd)
        · simp at hd
      case h_5 =>
        split at hd
        · simp at hd
        next hfunction =>
          exact declaredAmong_of_mem_toList hscope hself
            (fun _ => exists_foundAt_of_instantiated? (by simpa using hfunction)) hd
      case h_6 => exact hbelow (declaredAmong_of_mem_declarationsAmong children hscope hd)

theorem declaredAmong_of_mem_declarationsIn {d : Declaration} :
    ∀ (role : Role) (ns : List Node) {scope : Scope}, scope.Reached →
      d ∈ declarationsIn marking module scope role ns →
        DeclaredAmong marking module (Node.preorderAll ns) d
  | _, [], _, _, hd => by simp [declarationsIn] at hd
  | role, n :: rest, scope, hscope, hd => by
      rw [declarationsIn] at hd
      rw [Node.preorderAll]
      split at hd
      · exact (declaredAmong_of_mem_declarations n hscope hd).mono (List.subset_append_left _ _)
      · exact (declaredAmong_of_mem_declarationsIn role rest hscope hd).mono
          (List.subset_append_right _ _)

theorem declaredAmong_of_mem_declarationsAmong {d : Declaration} :
    ∀ (ns : List Node) {scope : Scope}, scope.Reached →
      d ∈ declarationsAmong marking module scope ns →
        DeclaredAmong marking module (Node.preorderAll ns) d
  | [], _, _, hd => by simp [declarationsAmong] at hd
  | n :: rest, scope, hscope, hd => by
      rw [declarationsAmong] at hd
      rw [Node.preorderAll]
      rcases List.mem_append.mp hd with hfirst | hrest
      · exact (declaredAmong_of_mem_declarations n hscope hfirst).mono
          (List.subset_append_left _ _)
      · exact (declaredAmong_of_mem_declarationsAmong rest hscope hrest).mono
          (List.subset_append_right _ _)

end

end

/-- Everything that the search gives is found somewhere in the tree. -/
theorem declaredAmong_of_mem_declarationsOf
    {platform : Platform} {module : String} {tree : Node} {d : Declaration}
    (hd : d ∈ declarationsOf platform module tree) :
    DeclaredAmong platform.marking module tree.preorder d :=
  declaredAmong_of_mem_declarations tree .top hd

end FlowSurvey
