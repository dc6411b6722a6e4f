import FlowSurvey.Failure
import FlowSurvey.Proofs.NodePositions

/-!
# First offences

A text is accepted if no node of its tree offends, however deep it stands and whether it has a
name or is a mere token.  Otherwise the first node in the order of the source that does so is
what the text is rejected for; if that is a statement that the language has given up, the
failure says which one it is and where it starts.
-/

namespace FlowSurvey

namespace Syntax

/-! ## Offenders -/

/-- The kinds of the nodes that no valid tree has. -/
def offendingKinds : List Kind :=
  [.error, .missing, .printStatement, .execStatement]

/-- The statements that the language has given up, with the words that they open with. -/
def abandonedStatements : List (Kind × String) :=
  [(.printStatement, "print"), (.execStatement, "exec")]

namespace Node

def Offends (n : Node) : Prop :=
  n.kind ∈ offendingKinds

instance : DecidablePred Offends := fun n =>
  inferInstanceAs (Decidable (n.kind ∈ offendingKinds))

theorem isSome_offence?_iff {n : Node} : n.offence?.isSome = true ↔ n.Offends := by
  unfold offence? Offends
  split <;> simp_all [offendingKinds]

theorem exists_offence_of_abandoned {n : Node} {word : String}
    (hword : (n.kind, word) ∈ abandonedStatements) :
    ∃ offence, n.offence? = some offence ∧
      offence.message = "Python 2 " ++ word ++ " statement" := by
  simp only [abandonedStatements, List.mem_cons, Prod.mk.injEq, List.not_mem_nil, or_false] at hword
  rcases hword with ⟨hkind, rfl⟩ | ⟨hkind, rfl⟩
  · exact ⟨.printStatement, by rw [offence?, hkind], rfl⟩
  · exact ⟨.execStatement, by rw [offence?, hkind], rfl⟩

/-! ## The search -/

mutual

theorem firstInvalid?_eq_find? : (n : Node) → n.firstInvalid? = n.preorder.find? Offends
  | ⟨kind, role, start, text, children⟩ => by
      rw [firstInvalid?, preorder]
      by_cases hroot : Offends ⟨kind, role, start, text, children⟩
      · rw [if_pos (isSome_offence?_iff.mpr hroot), List.find?_cons_of_pos (by simpa using hroot)]
      · rw [if_neg (mt isSome_offence?_iff.mp hroot), List.find?_cons_of_neg (by simpa using hroot),
          firstInvalidAmong?_eq_find? children]

theorem firstInvalidAmong?_eq_find? : (ns : List Node) →
    firstInvalidAmong? ns = (preorderAll ns).find? Offends
  | [] => rfl
  | n :: rest => by
      rw [firstInvalidAmong?, preorderAll, List.find?_append, firstInvalid?_eq_find? n,
        firstInvalidAmong?_eq_find? rest]
      cases (preorder n).find? Offends <;> rfl

end

theorem firstInvalid?_eq_some_iff {tree n : Node} :
    tree.firstInvalid? = some n ↔ tree.IsFirst Offends n := by
  rw [firstInvalid?_eq_find?, find?_preorder_eq_some_iff]

theorem firstInvalid?_eq_none_iff {tree : Node} :
    tree.firstInvalid? = none ↔ ∀ position n, tree.at? position = some n → ¬ n.Offends := by
  rw [firstInvalid?_eq_find?, List.find?_eq_none]
  constructor
  · intro hnone position n hn
    simpa using hnone n (mem_preorder_iff.mpr ⟨position, hn⟩)
  · intro hnone n hn
    obtain ⟨position, hposition⟩ := mem_preorder_iff.mp hn
    simpa using hnone position n hposition

theorem isFirst_offends_iff {tree n : Node} :
    tree.IsFirst Offends n ↔
      n.Offends ∧ ∃ before after, tree.preorder = before ++ n :: after ∧
        ∀ m ∈ before, ¬ m.Offends := by
  rw [← find?_preorder_eq_some_iff, List.find?_eq_some_iff_append]
  simp

end Node
end Syntax

/-! ## Rejected texts -/

open Syntax

theorem parseSource_of_accepted {path text : String} (hnone : (parse text).firstInvalid? = none) :
    parseSource path text = .ok (parse text) := by
  simp [parseSource, parseValid, Node.syntaxError?, hnone]

theorem parseSource_of_rejected {path text : String} {n : Node} {offence : Offence}
    (hfirst : (parse text).firstInvalid? = some n) (hoffence : n.offence? = some offence) :
    parseSource path text =
      .error (.invalid path (n.start.row + 1) (n.start.column + 1) offence.message) := by
  simp [parseSource, parseValid, Node.syntaxError?, hfirst, hoffence, SourceFailure.ofSyntaxError]

theorem parseSource_eq_ok_iff {path text : String} {tree : Node} :
    parseSource path text = .ok tree ↔
      tree = parse text ∧ ∀ position n, tree.at? position = some n → ¬ n.Offends := by
  constructor
  · intro hparse
    cases hfirst : (parse text).firstInvalid? with
    | none =>
      rw [parseSource_of_accepted hfirst, Except.ok.injEq] at hparse
      exact hparse ▸ ⟨rfl, Node.firstInvalid?_eq_none_iff.mp hfirst⟩
    | some n =>
      have hoffends := (Node.isFirst_offends_iff.mp (Node.firstInvalid?_eq_some_iff.mp hfirst)).1
      obtain ⟨offence, hoffence⟩ :=
        Option.isSome_iff_exists.mp (Node.isSome_offence?_iff.mpr hoffends)
      rw [parseSource_of_rejected hfirst hoffence] at hparse
      cases hparse
  · rintro ⟨rfl, hnone⟩
    exact parseSource_of_accepted (Node.firstInvalid?_eq_none_iff.mpr hnone)

/--
The search finds nothing exactly if nothing offends at any position.  What it finds is the node
at the least position of those that offend, which is the one with no other before it in
pre-order.  So a text is accepted exactly if its tree has no error, nothing missing and none of
the abandoned statements anywhere; and if the first offender is such a statement, the failure
has its line and its column and names it.
-/
theorem rejected_for_first_offender :
    (∀ tree : Node,
      (tree.firstInvalid? = none ↔ ∀ position n, tree.at? position = some n → ¬ n.Offends) ∧
      (∀ n, tree.firstInvalid? = some n ↔ tree.IsFirst Node.Offends n) ∧
      ∀ n, tree.IsFirst Node.Offends n ↔
        n.Offends ∧ ∃ before after, tree.preorder = before ++ n :: after ∧
          ∀ m ∈ before, ¬ m.Offends) ∧
    ∀ path text,
      (∀ tree, parseSource path text = .ok tree ↔
        tree = parse text ∧ ∀ position n, tree.at? position = some n → ¬ n.Offends) ∧
      ∀ n word, (parse text).IsFirst Node.Offends n → (n.kind, word) ∈ abandonedStatements →
        parseSource path text =
          .error (.invalid path (n.start.row + 1) (n.start.column + 1)
            ("Python 2 " ++ word ++ " statement")) := by
  constructor
  · intro tree
    exact ⟨Node.firstInvalid?_eq_none_iff, fun n => Node.firstInvalid?_eq_some_iff,
      fun n => Node.isFirst_offends_iff⟩
  · intro path text
    refine ⟨fun tree => parseSource_eq_ok_iff, fun n word hfirst hword => ?_⟩
    obtain ⟨offence, hoffence, hmessage⟩ := Node.exists_offence_of_abandoned hword
    rw [parseSource_of_rejected (Node.firstInvalid?_eq_some_iff.mpr hfirst) hoffence, hmessage]

/-- A print statement in two blocks, with another abandoned statement behind it. -/
def printInBlocks : String :=
  "def f(x):\n    if x:\n        print 'a'\n    exec 'b'\n"

theorem rejected_for_first_offender_printInBlocks :
    ∃ n, (parse printInBlocks).IsFirst Node.Offends n ∧
      (n.kind, "print") ∈ abandonedStatements ∧
      parseSource "old.py" printInBlocks =
        .error (.invalid "old.py" 3 9 "Python 2 print statement") := by
  have hfound : (parse printInBlocks).firstInvalid?.map (fun n => (n.kind, n.start)) =
      some (.printStatement, ⟨2, 8⟩) := by
    decide +kernel
  obtain ⟨n, hn, hstart⟩ := Option.map_eq_some_iff.mp hfound
  rw [Prod.mk.injEq] at hstart
  have hword : (n.kind, "print") ∈ abandonedStatements := hstart.1 ▸ List.mem_cons_self
  obtain ⟨hsearch, hsource⟩ := rejected_for_first_offender
  have hfirst := ((hsearch _).2.1 n).mp hn
  have hrejected := (hsource "old.py" printInBlocks).2 n "print" hfirst hword
  rw [hstart.2] at hrejected
  exact ⟨n, hfirst, hword, hrejected⟩

end FlowSurvey
