import FlowSurvey.Proofs.DeclarationFindings
import FlowSurvey.Proofs.JsonDocument
import FlowSurvey.Proofs.SurveyRun

/-!
# Attributes of flows in source

What a scan puts into the attributes of a flow is known from the source alone: the name
of the function around it, that of the platform, and the keywords of its marker whose
values are constants.  A constant holds no other value, and the keywords are kept in the
order of their names.  So the attributes are in that order too, and hold one more level of
objects at most.
-/

namespace FlowSurvey

open Syntax

namespace Json

/-- A value that holds no other. -/
def Scalar : Json → Prop
  | .arr _ | .obj _ => False
  | _ => True

theorem scalar_ofNat (n : Nat) : (ofNat n).Scalar := by
  unfold ofNat
  split <;> trivial

theorem Scalar.ordered {value : Json} (hscalar : value.Scalar) : value.Ordered := by
  cases value <;> trivial

theorem Scalar.nesting_eq_zero {value : Json} (hscalar : value.Scalar) : value.nesting = 0 := by
  cases value <;> first | rfl | exact hscalar.elim

end Json

/-! ## Constants -/

theorem scalar_of_map_eq_some
    {found : Option α} {f : α → Json} {value : Json} (hvalue : found.map f = some value)
    (hf : ∀ a, (f a).Scalar) : value.Scalar := by
  obtain ⟨a, -, rfl⟩ := Option.map_eq_some_iff.mp hvalue
  exact hf a

mutual

theorem scalar_of_constant? : ∀ (n : Node) {value : Json}, constant? n = some value → value.Scalar
  | ⟨kind, role, start, text, children⟩, value, hvalue => by
      unfold constant? at hvalue
      split at hvalue
      case h_1 | h_2 | h_4 => exact scalar_of_map_eq_some hvalue fun _ => trivial
      case h_3 => exact scalar_of_map_eq_some hvalue Json.scalar_ofNat
      case h_5 | h_6 | h_7 =>
        obtain rfl := Option.some.inj hvalue
        trivial
      case h_8 => exact scalar_of_onlyConstant? children hvalue
      case h_9 => cases hvalue

theorem scalar_of_onlyConstant? :
    ∀ (ns : List Node) {value : Json}, onlyConstant? ns = some value → value.Scalar
  | [], _, hvalue => by simp [onlyConstant?] at hvalue
  | n :: rest, value, hvalue => by
      rw [onlyConstant?] at hvalue
      split at hvalue
      · split at hvalue
        · cases hvalue
        · exact scalar_of_constant? n hvalue
      · exact scalar_of_onlyConstant? rest hvalue

end

/-- Fields in the order of their names, each of a value that holds no other. -/
def Constants (fields : List (String × Json)) : Prop :=
  (fields.Pairwise fun a b => a.1 < b.1) ∧ ∀ field ∈ fields, field.2.Scalar

theorem scalar_of_constantKeyword?
    {argument : Node} {field : String × Json} (hfield : constantKeyword? argument = some field) :
    field.2.Scalar := by
  unfold constantKeyword? at hfield
  split at hfield
  · simp only [Option.bind_eq_bind, Option.bind_eq_some_iff, Option.pure_def] at hfield
    obtain ⟨name, -, value, -, constant, hconstant, hfield⟩ := hfield
    obtain rfl := Option.some.inj hfield
    exact scalar_of_constant? value hconstant
  · cases hfield

theorem constants_constantKeywords (call : Node) : Constants (constantKeywords call) := by
  unfold constantKeywords
  split
  next arguments _ =>
    obtain ⟨hordered, hmem⟩ :=
      Json.fieldsOfList_spec (arguments.children.filterMap constantKeyword?)
    refine ⟨hordered, fun field hfield => ?_⟩
    obtain ⟨argument, -, hargument⟩ := List.mem_filterMap.mp (hmem field hfield)
    exact scalar_of_constantKeyword? hargument
  · exact ⟨List.Pairwise.nil, by simp⟩

theorem FoundAt.constants_keywords
    {marking : Marking} {scope : Scope} {n marker : Node} {f : Finding}
    (hf : FoundAt marking scope n marker f) : Constants f.keywords := by
  cases hf <;> exact constants_constantKeywords marker

theorem constants_of_mem_declarationsOf
    {platform : Platform} {module : String} {tree : Node} {d : Declaration}
    (hd : d ∈ declarationsOf platform module tree) : Constants d.keywords := by
  obtain ⟨n, _, scope, marker, f, _, hf, rfl⟩ := declaredAmong_of_mem_declarationsOf hd
  exact hf.constants_keywords

/-! ## Attributes -/

/-- What the attributes of a flow may be: constants, and objects that hold nothing else. -/
structure Shallow (attributes : List (String × Json)) : Prop where
  ordered : (Json.obj attributes).Ordered
  nesting_le : (Json.obj attributes).nesting ≤ 2

/-- There are three names at most, of which only the last is always there. -/
theorem names_attributesOf (platform : Platform) (d : Declaration) :
    ((attributesOf platform d).map (·.1)).Sublist ["enclosing_function", "kwargs", "platform"] := by
  unfold attributesOf
  cases d.enclosingFunction <;> split <;> simp

theorem shallow_attributesOf
    (platform : Platform) {d : Declaration} (hkeywords : Constants d.keywords) :
    Shallow (attributesOf platform d) := by
  have hordered : (Json.obj d.keywords).Ordered :=
    ⟨hkeywords.1, Json.orderedFields_of_forall fun field hfield =>
      (hkeywords.2 field hfield).ordered⟩
  have hnesting : (Json.obj d.keywords).nesting ≤ 1 :=
    Nat.add_le_add_left (Json.nestingFields_le fun field hfield =>
      (hkeywords.2 field hfield).nesting_eq_zero.le) 1
  -- Whichever of the names are there, they are in the order of the list of all three.
  have hnames : ["enclosing_function", "kwargs", "platform"].Pairwise (· < ·) := by decide
  have hvalues : ∀ field ∈ attributesOf platform d,
      field.2.Ordered ∧ field.2.nesting ≤ 1 := by
    intro field hfield
    simp only [attributesOf, List.mem_append, Option.mem_toList, Option.map_eq_some_iff,
      List.mem_singleton] at hfield
    obtain (⟨name, -, rfl⟩ | hkwargs) | rfl := hfield
    · exact ⟨trivial, Nat.zero_le 1⟩
    · split at hkwargs
      · simp at hkwargs
      · rw [List.mem_singleton.mp hkwargs]
        exact ⟨hordered, hnesting⟩
    · exact ⟨trivial, Nat.zero_le 1⟩
  have hpairwise : (attributesOf platform d).Pairwise fun a b => a.1 < b.1 :=
    List.pairwise_map.mp (hnames.sublist (names_attributesOf platform d))
  exact ⟨⟨hpairwise, Json.orderedFields_of_forall fun field hfield => (hvalues field hfield).1⟩,
    Nat.add_le_add_left (Json.nestingFields_le fun field hfield => (hvalues field hfield).2) 1⟩

/-- Every flow that is found in files has such attributes. -/
theorem Survey.shallow_of_mem_flowsFrom
    {fs : FileSystem} {platform : Platform} {root : String} {flow : Flow} {start : Nat}
    {files : List String} (hflow : flow ∈ flowsFrom fs platform root start files) :
    Shallow flow.attributes := by
  obtain ⟨_, _, tree, _, d, _, hd, rfl⟩ := exists_declaration_of_mem_flowsFrom fs platform root hflow
  exact shallow_attributesOf platform (constants_of_mem_declarationsOf hd)

end FlowSurvey
