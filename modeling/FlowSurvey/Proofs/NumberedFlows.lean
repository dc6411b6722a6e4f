import FlowSurvey.Location
import Mathlib.Data.List.Basic
import Std.Data.String.ToNat

/-!
# Numbered flows

The id of a flow is its declared name with a number behind an underscore.  The
name may be any text at all, also one that ends in an underscore and digits, so
an id need not show which name it was made from at first sight; but the digits
behind its last underscore are always those of the number.  Flows with different
numbers therefore have different ids.
-/

namespace FlowSurvey

private theorem eq_of_append_separator_eq
    {separator : Char} {first second xs ys : List Char}
    (hxs : separator ∉ xs) (hys : separator ∉ ys)
    (heq : first ++ separator :: xs = second ++ separator :: ys) : xs = ys := by
  rcases List.append_eq_append_iff.mp heq with
    ⟨between, _, htail⟩ | ⟨between, _, htail⟩
  · cases between with
    | nil => exact (List.cons.inj htail).2
    | cons c rest =>
        obtain ⟨_, rfl⟩ := List.cons.inj htail
        exact absurd (by simp) hxs
  · cases between with
    | nil => exact (List.cons.inj htail).2.symm
    | cons c rest =>
        obtain ⟨_, rfl⟩ := List.cons.inj htail
        exact absurd (by simp) hys

/-- The number can be told from an id, whatever the names are. -/
theorem number_eq_of_id_eq
    {first second : String} {m n : Nat}
    (heq : first ++ "_" ++ toString m = second ++ "_" ++ toString n) : m = n := by
  have hlists : first.toList ++ '_' :: Nat.toDigits 10 m =
      second.toList ++ '_' :: Nat.toDigits 10 n := by
    simpa using congrArg String.toList heq
  have hdigits := eq_of_append_separator_eq (by simp) (by simp) hlists
  apply Nat.repr_injective
  apply String.toList_injective
  simpa using hdigits

/-- Every flow has the number that its place in the list gives it. -/
def NumberedFrom (start : Nat) (flows : List Flow) : Prop :=
  ∀ i flow, flows[i]? = some flow →
    flow.id = flow.declaredName ++ "_" ++ toString (start + i)

theorem numberedFrom_nil (start : Nat) : NumberedFrom start [] := by
  intro i flow hflow
  simp at hflow

theorem NumberedFrom.append
    {start : Nat} {first second : List Flow}
    (hfirst : NumberedFrom start first)
    (hsecond : NumberedFrom (start + first.length) second) :
    NumberedFrom start (first ++ second) := by
  intro i flow hflow
  by_cases hi : i < first.length
  · rw [List.getElem?_append_left hi] at hflow
    exact hfirst i flow hflow
  · rw [List.getElem?_append_right (by omega)] at hflow
    have hnumber : start + first.length + (i - first.length) = start + i := by omega
    rw [← hnumber]
    exact hsecond _ flow hflow

theorem NumberedFrom.ids_nodup
    {start : Nat} {flows : List Flow} (hflows : NumberedFrom start flows) :
    (flows.map (·.id)).Nodup := by
  rw [List.Nodup, List.pairwise_iff_getElem]
  intro i j hi hj hlt heq
  simp only [List.length_map] at hi hj
  rw [List.getElem_map, List.getElem_map,
    hflows i _ (List.getElem?_eq_getElem hi),
    hflows j _ (List.getElem?_eq_getElem hj)] at heq
  have := number_eq_of_id_eq heq
  omega

/-! ## The flows of a file -/

theorem getElem?_flowsOfFile
    (platform : Platform) (root path : String) (tree : Syntax.Node) (start i : Nat) :
    (flowsOfFile platform root path tree start)[i]? =
      (declarationsOf platform (locate root path).module tree)[i]?.map fun d =>
        .ofDeclaration platform (locate root path) (start + i) d := by
  simp [flowsOfFile, numbered, List.getElem?_zipIdx, Function.comp_def]

theorem length_flowsOfFile
    (platform : Platform) (root path : String) (tree : Syntax.Node) (start : Nat) :
    (flowsOfFile platform root path tree start).length =
      (declarationsOf platform (locate root path).module tree).length := by
  simp [flowsOfFile, numbered]

theorem numberedFrom_flowsOfFile
    (platform : Platform) (root path : String) (tree : Syntax.Node) (start : Nat) :
    NumberedFrom start (flowsOfFile platform root path tree start) := by
  intro i flow hflow
  rw [getElem?_flowsOfFile] at hflow
  obtain ⟨d, _, rfl⟩ := Option.map_eq_some_iff.mp hflow
  rfl

end FlowSurvey
