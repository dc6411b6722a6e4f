import FlowSurvey.Proofs.JsonDocument
import FlowSurvey.Proofs.RespacedConstants

/-!
# Keywords and documentation in respaced trees

The keywords of a call are recorded with the constants among their values, and the
documentation of a definition is the constant that its body starts with.  What is read off a
respaced tree is therefore the same as before exactly as long as these constants are not hidden
by what was put in.
-/

namespace FlowSurvey

open Syntax

/-! ## Keywords of calls -/

/-- A keyword with the expression behind it, whether it is a constant or not. -/
def keywordValue? (argument : Node) : Option (String × Node) :=
  if argument.kind = .keywordArgument then do
    let name ← argument.child? .name
    let value ← argument.child? .value
    return (name.text, value)
  else none

/-- The keywords of a call in the order of the source. -/
def keywordValues (call : Node) : List (String × Node) :=
  match call.child? .arguments with
  | some arguments => arguments.children.filterMap keywordValue?
  | none => []

def constantsAmong (keywords : List (String × Node)) : List (String × Json) :=
  keywords.filterMap fun keyword => (constant? keyword.2).map fun value => (keyword.1, value)

theorem constantKeyword?_eq_bind (argument : Node) :
    constantKeyword? argument =
      (keywordValue? argument).bind fun keyword =>
        (constant? keyword.2).map fun value => (keyword.1, value) := by
  unfold constantKeyword? keywordValue?
  split
  · cases argument.child? .name with
    | none => rfl
    | some name =>
      cases argument.child? .value with
      | none => rfl
      | some value => cases hvalue : constant? value <;> simp [hvalue]
  · rfl

theorem constantKeywords_eq (call : Node) :
    constantKeywords call = Json.fieldsOfList (constantsAmong (keywordValues call)) := by
  unfold constantKeywords keywordValues
  cases call.child? .arguments with
  | none => rfl
  | some arguments =>
    simp only [constantsAmong, List.filterMap_filterMap, ← constantKeyword?_eq_bind]

/-- A keyword whose value has been respaced. -/
def KeywordRespaced (keyword respaced : String × Node) : Prop :=
  respaced.1 = keyword.1 ∧ Respaced keyword.2 respaced.2

/-- Whatever keyword has a constant as its value, nothing hides it now. -/
def KeepsConstants (keywords respaced : List (String × Node)) : Prop :=
  ∀ pair ∈ keywords.zip respaced, constant? pair.1.2 = none ∨ pair.2.2.Tidy

section

variable {m n : Node}

theorem keywordValue?_eq_bind {argument : Node} (hkind : argument.kind = .keywordArgument) :
    keywordValue? argument =
      (argument.child? .name).bind fun name =>
        (argument.child? .value).map fun value => (name.text, value) := by
  rw [keywordValue?, if_pos hkind]
  cases argument.child? .name <;> cases argument.child? .value <;> rfl

theorem rel_keywordValue?_of_respaced (hmn : Respaced m n) :
    Option.Rel KeywordRespaced (keywordValue? m) (keywordValue? n) := by
  have hkind : n.kind = .keywordArgument ↔ m.kind = .keywordArgument :=
    hmn.kind_eq_iff (by decide)
  by_cases hm : m.kind = .keywordArgument
  · have hconstant : m.kind ∉ constantKinds := by
      rw [hm]
      decide
    have hrebuilt := hmn.rebuilt_of_not_mem (.inl hconstant)
    have hname : Option.Rel Rebuilt (m.child? .name) (n.child? .name) :=
      hrebuilt.rel_child?_of_not_mem (by decide)
    have hvalue := hrebuilt.rel_child? .value
    rw [keywordValue?_eq_bind hm, keywordValue?_eq_bind (hkind.mpr hm)]
    generalize m.child? .name = name, n.child? .name = name' at hname ⊢
    generalize m.child? .value = value, n.child? .value = value' at hvalue ⊢
    cases hname with
    | none => exact .none
    | some hname =>
      cases hvalue with
      | none => exact .none
      | some hvalue => exact .some ⟨hname.text_eq, hvalue⟩
  · rw [keywordValue?, keywordValue?, if_neg hm, if_neg (mt hkind.mp hm)]
    exact .none

theorem forall₂_keywordValue?_of_respaced : ∀ {ms ns}, RespacedAll ms ns →
    List.Forall₂ KeywordRespaced (ms.filterMap keywordValue?) (ns.filterMap keywordValue?)
  | _, _, .nil => .nil
  | _, _, .trivia (n := n) htrivia hrest => by
    have hkind : n.kind ≠ .keywordArgument := by
      rcases Kind.isTrivia_iff.mp htrivia.1 with hcomment | hline
      · simp [hcomment]
      · simp [hline]
    rw [List.filterMap_cons_none (by rw [keywordValue?, if_neg hkind])]
    exact forall₂_keywordValue?_of_respaced hrest
  | _, _, .node (m := m) (n := n) hnode hrest => by
    have hkeyword := rel_keywordValue?_of_respaced hnode
    have hmore := forall₂_keywordValue?_of_respaced hrest
    rw [List.filterMap_cons, List.filterMap_cons]
    generalize keywordValue? m = keyword at hkeyword ⊢
    generalize keywordValue? n = respaced at hkeyword ⊢
    cases hkeyword with
    | none => exact hmore
    | some hsame => exact .cons hsame hmore

theorem keywordValues_of_respaced (hmn : Respaced m n) (hm : m.kind = .call) :
    List.Forall₂ KeywordRespaced (keywordValues m) (keywordValues n) := by
  have hconstant : m.kind ∉ constantKinds := by
    rw [hm]
    decide
  have harguments : Option.Rel Rebuilt (m.child? .arguments) (n.child? .arguments) :=
    (hmn.rebuilt_of_not_mem (.inl hconstant)).rel_child?_of_not_mem (by decide)
  unfold keywordValues
  generalize m.child? .arguments = arguments, n.child? .arguments = respaced at harguments ⊢
  cases harguments with
  | none => exact .nil
  | some hsame => exact forall₂_keywordValue?_of_respaced hsame.children

theorem constantsAmong_of_keepsConstants {ks ls : List (String × Node)}
    (hall : List.Forall₂ KeywordRespaced ks ls) (hkeeps : KeepsConstants ks ls) :
    constantsAmong ls = constantsAmong ks := by
  induction hall with
  | nil => rfl
  | @cons k l ks ls hkeyword _ ih =>
    have hfirst : constant? k.2 = none ∨ l.2.Tidy := hkeeps (k, l) List.mem_cons_self
    have hrest : KeepsConstants ks ls := fun pair hpair =>
      hkeeps pair (List.mem_cons_of_mem _ hpair)
    have hconstant := (constant?_eq_iff_of_respaced hkeyword.2).mpr hfirst
    simp only [constantsAmong, List.filterMap_cons, hconstant, hkeyword.1] at ih ⊢
    rw [ih hrest]

theorem map_fst_eq_of_respaced {ks ls : List (String × Node)}
    (hall : List.Forall₂ KeywordRespaced ks ls) : ls.map Prod.fst = ks.map Prod.fst := by
  induction hall with
  | nil => rfl
  | cons hkeyword _ ih => rw [List.map_cons, List.map_cons, hkeyword.1, ih]

theorem mem_constantsAmong {ks : List (String × Node)} {name : String} {value : Json} :
    (name, value) ∈ constantsAmong ks ↔ ∃ n, (name, n) ∈ ks ∧ constant? n = some value := by
  simp only [constantsAmong, List.mem_filterMap, Option.map_eq_some_iff, Prod.mk.injEq]
  constructor
  · rintro ⟨⟨found, n⟩, hmem, _, hvalue, rfl, rfl⟩
    exact ⟨n, hmem, hvalue⟩
  · rintro ⟨n, hmem, hvalue⟩
    exact ⟨(name, n), hmem, value, hvalue, rfl, rfl⟩

theorem nodup_map_fst_constantsAmong {ks : List (String × Node)}
    (hnames : (ks.map Prod.fst).Nodup) : ((constantsAmong ks).map Prod.fst).Nodup := by
  rw [List.Nodup, List.pairwise_map] at hnames ⊢
  rw [constantsAmong, List.pairwise_filterMap]
  refine hnames.imp fun {k l} hne field hfield other hother => ?_
  obtain ⟨_, _, rfl⟩ := Option.map_eq_some_iff.mp hfield
  obtain ⟨_, _, rfl⟩ := Option.map_eq_some_iff.mp hother
  exact hne

/-- Of keywords with different names, none can stand in for another one that is hidden. -/
theorem keepsConstants_of_fieldsOfList_eq {ks ls : List (String × Node)}
    (hall : List.Forall₂ KeywordRespaced ks ls) (hnames : (ks.map Prod.fst).Nodup)
    (hsame : Json.fieldsOfList (constantsAmong ls) = Json.fieldsOfList (constantsAmong ks)) :
    KeepsConstants ks ls := by
  rintro ⟨⟨name, n⟩, ⟨name', n'⟩⟩ hpair
  cases hvalue : constant? n with
  | none => exact .inl rfl
  | some value =>
    refine .inr ?_
    obtain ⟨hk, hl⟩ := List.of_mem_zip hpair
    obtain rfl : name' = name := ((List.forall₂_iff_zip.mp hall).2 hpair).1
    have hfield : (name', value) ∈ Json.fieldsOfList (constantsAmong ls) := by
      rw [hsame]
      exact Json.mem_fieldsOfList (nodup_map_fst_constantsAmong hnames)
        (mem_constantsAmong.mpr ⟨n, hk, hvalue⟩)
    obtain ⟨found, hfound, hvalue'⟩ :=
      mem_constantsAmong.mp ((Json.fieldsOfList_spec _).2 _ hfield)
    -- The field comes from a keyword of that name, and there is only one.
    have hnames' : (ls.map Prod.fst).Nodup := by rwa [map_fst_eq_of_respaced hall]
    have heq := List.inj_on_of_nodup_map hnames' hfound hl rfl
    rw [Prod.mk.injEq] at heq
    rw [heq.2] at hvalue'
    exact tidy_of_constant? hvalue'

/-! ## Documentation -/

/-- The expression that the body of a definition starts with, if it stands alone there. -/
def documentation? (definition : Node) : Option Node :=
  (definition.child? .body).bind fun body =>
    (body.children.filter Node.isSubstantial).head?.bind fun first =>
      if first.kind = .expressionStatement then first.onlyNamed? else none

theorem docstring?_eq_bind (definition : Node) :
    docstring? definition =
      (documentation? definition).bind fun n =>
        ((constant? n).bind Json.asString?).map Text.cleanDocstring := by
  unfold docstring? documentation?
  cases definition.child? .body with
  | none => rfl
  | some body =>
    have hfirst : (body.namedChildren.find? fun n => n.kind != .comment) =
        (body.children.filter Node.isSubstantial).head? := by
      rw [← List.head?_filter, Node.namedChildren, List.filter_filter]
      congr 2
      funext n
      exact Bool.and_comm _ _
    simp only [Option.bind_eq_bind, Option.bind_some, hfirst]
    cases (body.children.filter Node.isSubstantial).head? with
    | none => rfl
    | some first =>
      simp only [Option.bind_some]
      by_cases hkind : first.kind = .expressionStatement
      · simp only [guard, hkind, if_true, Option.pure_def, Option.bind_some, Node.onlyNamed?]
        -- The body starts with no expression, one expression, or several of them.
        rcases first.namedChildren with _ | ⟨n, _ | ⟨other, more⟩⟩
        · rfl
        · cases hvalue : constant? n with
          | none => simp [hvalue]
          | some value => cases hdoc : value.asString? <;> simp [hvalue, hdoc]
        · rfl
      · simp [hkind]

/-- What was put in is the documentation only where there was none. -/
theorem documentation?_of_respaced (hmn : Respaced m n) (hm : m.kind ∉ constantKinds)
    {doc : Node} (hdoc : documentation? n = some doc) :
    documentation? m = none ∧ doc.IsTrivia ∨
      ∃ original, documentation? m = some original ∧ Respaced original doc := by
  have hbody : Option.Rel Rebuilt (m.child? .body) (n.child? .body) :=
    (hmn.rebuilt_of_not_mem (.inl hm)).rel_child?_of_not_mem (by decide)
  unfold documentation? at hdoc ⊢
  generalize m.child? .body = body, n.child? .body = respaced at hbody hdoc ⊢
  cases hbody with
  | none => contradiction
  | @some body respaced hbody =>
    have hfirst := hbody.children.filter Respaced.isSubstantial_eq
    rw [Option.bind_some] at hdoc ⊢
    generalize body.children.filter Node.isSubstantial = statements,
      respaced.children.filter Node.isSubstantial = others at hfirst hdoc ⊢
    cases hfirst with
    | nil => contradiction
    | trivia htrivia =>
      -- A joined line in front of the statements takes the place of the first one.
      rw [List.head?_cons, Option.bind_some] at hdoc
      split at hdoc
      next hkind =>
        have := htrivia.1
        rw [hkind] at this
        contradiction
      next => contradiction
    | @node first first' _ _ hnode =>
      rw [List.head?_cons, Option.bind_some] at hdoc ⊢
      have hkind : first'.kind = .expressionStatement ↔ first.kind = .expressionStatement :=
        hnode.kind_eq_iff (by decide)
      split at hdoc
      next hstatement =>
        have hfirst := hkind.mp hstatement
        rw [if_pos hfirst]
        have hrebuilt := hnode.rebuilt_of_not_mem (.inl (by rw [hfirst]; decide))
        exact onlyNamed?_of_respaced hrebuilt.children hdoc
      next => contradiction

theorem docstring?_of_tidy (hmn : Respaced m n) (hm : m.kind ∉ constantKinds) {doc : Node}
    (hdoc : documentation? n = some doc) (htidy : doc.Tidy) : docstring? n = docstring? m := by
  rw [docstring?_eq_bind, docstring?_eq_bind, hdoc, Option.bind_some]
  rcases documentation?_of_respaced hmn hm hdoc with ⟨hnone, htrivia, _⟩ | ⟨original, ho, hsame⟩
  · rw [hnone, constant?_of_isTrivia htrivia]
    rfl
  · rw [ho, Option.bind_some, constant?_of_respaced htidy hsame]

theorem tidy_of_docstring? {text : String} (hn : docstring? n = some text) :
    ∃ doc, documentation? n = some doc ∧ doc.Tidy := by
  rw [docstring?_eq_bind] at hn
  obtain ⟨doc, hdoc, htext⟩ := Option.bind_eq_some_iff.mp hn
  obtain ⟨_, hstring, _⟩ := Option.map_eq_some_iff.mp htext
  obtain ⟨value, hvalue, _⟩ := Option.bind_eq_some_iff.mp hstring
  exact ⟨doc, hdoc, tidy_of_constant? hvalue⟩

/-- A definition keeps its documentation exactly if nothing hides the constant that it is. -/
theorem docstring?_eq_iff_of_respaced (hmn : Respaced m n) (hm : m.kind ∉ constantKinds) :
    docstring? n = docstring? m ↔
      docstring? m = none ∨ ∃ doc, documentation? n = some doc ∧ doc.Tidy := by
  constructor
  · intro hsame
    cases hmdoc : docstring? m with
    | none => exact .inl rfl
    | some text => exact .inr (tidy_of_docstring? (hsame.trans hmdoc))
  · rintro (hnone | ⟨doc, hdoc, htidy⟩)
    · cases hndoc : docstring? n with
      | none => exact hnone.symm
      | some text =>
        obtain ⟨doc, hdoc, htidy⟩ := tidy_of_docstring? hndoc
        rw [← hndoc]
        exact docstring?_of_tidy hmn hm hdoc htidy
    · exact docstring?_of_tidy hmn hm hdoc htidy

/-! ## Readings -/

/--
A respaced tree has the constant of the tree it was made from or none, and it has the same
exactly if there was none or nothing hides it.  The keywords of a call are the same if no
constant among their values is hidden, and only then if their names differ.  The
documentation of a definition is the same exactly if there was none or nothing hides it.
-/
theorem respaced_reads_same_iff (hmn : Respaced m n) :
    ((constant? n = none ∨ constant? n = constant? m) ∧
        (constant? n = constant? m ↔ constant? m = none ∨ n.Tidy)) ∧
      (m.kind = .call →
        List.Forall₂ KeywordRespaced (keywordValues m) (keywordValues n) ∧
          (KeepsConstants (keywordValues m) (keywordValues n) →
            constantKeywords n = constantKeywords m) ∧
          (((keywordValues m).map Prod.fst).Nodup →
            constantKeywords n = constantKeywords m →
              KeepsConstants (keywordValues m) (keywordValues n))) ∧
      (m.kind = .functionDefinition ∨ m.kind = .classDefinition →
        (docstring? n = docstring? m ↔
          docstring? m = none ∨ ∃ doc, documentation? n = some doc ∧ doc.Tidy)) := by
  refine ⟨⟨?_, constant?_eq_iff_of_respaced hmn⟩, fun hcall => ?_, fun hdefinition => ?_⟩
  · cases hn : constant? n with
    | none => exact .inl rfl
    | some value =>
      rw [← hn]
      exact .inr (constant?_of_respaced (tidy_of_constant? hn) hmn)
  · have hall := keywordValues_of_respaced hmn hcall
    refine ⟨hall, fun hkeeps => ?_, fun hnames hsame => ?_⟩
    · rw [constantKeywords_eq, constantKeywords_eq, constantsAmong_of_keepsConstants hall hkeeps]
    · rw [constantKeywords_eq, constantKeywords_eq] at hsame
      exact keepsConstants_of_fieldsOfList_eq hall hnames hsame
  · have hm : m.kind ∉ constantKinds := by
      rcases hdefinition with hfunction | hclass
      · simp [hfunction, constantKinds]
      · simp [hclass, constantKinds]
    exact docstring?_eq_iff_of_respaced hmn hm

end

/-! ### Examples -/

private def signAt (column : Nat) (text : String) : Node :=
  .leaf .token ⟨0, column⟩ text

private def commentAt (column : Nat) : Node :=
  .leaf .comment ⟨0, column⟩ "# note"

/-- A letter between quotes. -/
private def quotedAt (column : Nat) : Node :=
  .leaf .string ⟨0, column⟩ "\"x\""

private def identifierAt (column : Nat) (text : String) : Node :=
  .leaf .identifier ⟨0, column⟩ text

/-- A construct without parts may stand in any other place. -/
private theorem respaced_leaf (kind : Kind) (role : Option Role) (start start' : Place)
    (text : String) : Respaced ⟨kind, role, start, text, []⟩ ⟨kind, role, start', text, []⟩ :=
  .rebuilt rfl rfl rfl (fun _ _ hpart => absurd hpart List.not_mem_nil) .nil

private theorem respaced_branch {kind : Kind} (hkind : kind ≠ .concatenatedString)
    (role : Option Role) (start start' : Place) {ms ns : List Node} (hall : RespacedAll ms ns) :
    Respaced ⟨kind, role, start, "", ms⟩ ⟨kind, role, start', "", ns⟩ :=
  .rebuilt rfl rfl rfl (fun hm => absurd hm hkind) hall

/-- A letter that is put in parentheses. -/
private theorem respaced_quotedInParentheses (role : Option Role) (hrole : role ∈ groupableRoles)
    (column : Nat) :
    Respaced { quotedAt column with role := role }
      ⟨.parenthesized, role, ⟨0, column⟩, "",
        [signAt column "(", quotedAt (column + 1), signAt (column + 4) ")"]⟩ :=
  have hkind : Kind.string ∈ constantKinds := by decide
  have hchildren : [signAt column "(", quotedAt (column + 1), signAt (column + 4) ")"] =
      [signAt column "("] ++ quotedAt (column + 1) :: [signAt (column + 4) ")"] := rfl
  .enclosed hkind hrole rfl rfl hchildren (by simp [signAt, Node.leaf])
    (respaced_leaf _ _ _ _ _)

private theorem tidy_quotedInParentheses (role : Option Role) (column : Nat) :
    Node.Tidy ⟨.parenthesized, role, ⟨0, column⟩, "",
      [signAt column "(", quotedAt (column + 1), signAt (column + 4) ")"]⟩ := by
  have hparts : ∀ part ∈ [signAt column "(", quotedAt (column + 1), signAt (column + 4) ")"],
      part.kind = .token ∨ part.kind = .string := by
    simp [signAt, quotedAt, Node.leaf]
  refine .parenthesized rfl (fun part hpart => ?_) fun part hpart => .other ?_
  all_goals rcases hparts part hpart with hkind | hkind <;> rw [hkind] <;> decide

private def keywordAt (column : Nat) (name : String) (value : Node) : Node :=
  .branch .keywordArgument ⟨0, column⟩
    [(identifierAt column name).withRole .name, signAt (column + 1) "=", value.withRole .value]

/-- A call with two keywords. -/
def plainCall : Node :=
  .branch .call ⟨0, 0⟩
    [(identifierAt 0 "f").withRole .function,
      (Node.branch .argumentList ⟨0, 1⟩
        [signAt 1 "(", keywordAt 2 "x" (quotedAt 4), signAt 7 ",",
          keywordAt 9 "y" (.leaf .none ⟨0, 11⟩ "None"), signAt 15 ")"]).withRole .arguments]

/-- The same call with parentheses and a comment. -/
def spacedCall : Node :=
  .branch .call ⟨0, 0⟩
    [(identifierAt 0 "f").withRole .function,
      (Node.branch .argumentList ⟨0, 1⟩
        [signAt 1 "(",
          keywordAt 2 "x" (.branch .parenthesized ⟨0, 4⟩
            [signAt 4 "(", quotedAt 5, signAt 8 ")"]),
          signAt 9 ",", commentAt 11,
          keywordAt 9 "y" (.leaf .none ⟨1, 11⟩ "None"), signAt 15 ")"]).withRole .arguments]

theorem respaced_spacedCall : Respaced plainCall spacedCall := by
  apply respaced_branch (by decide)
  refine .node (respaced_leaf _ _ _ _ _) (.node (respaced_branch (by decide) _ _ _ ?_) .nil)
  refine .node (respaced_leaf _ _ _ _ _) (.node ?_ (.node (respaced_leaf _ _ _ _ _)
    (.trivia ⟨rfl, rfl⟩ (.node ?_ (.node (respaced_leaf _ _ _ _ _) .nil)))))
  · apply respaced_branch (by decide)
    exact .node (respaced_leaf _ _ _ _ _) (.node (respaced_leaf _ _ _ _ _)
      (.node (respaced_quotedInParentheses _ (by decide) 4) .nil))
  · apply respaced_branch (by decide)
    exact .node (respaced_leaf _ _ _ _ _) (.node (respaced_leaf _ _ _ _ _)
      (.node (respaced_leaf _ _ _ _ _) .nil))

/-- A function that starts with a letter between quotes. -/
def plainDefinition : Node :=
  .branch .functionDefinition ⟨0, 0⟩
    [signAt 0 "def", (identifierAt 4 "f").withRole .name, signAt 7 ":",
      (Node.branch .block ⟨0, 9⟩ [.branch .expressionStatement ⟨0, 9⟩ [quotedAt 9]]).withRole
        .body]

/-- The same function with a comment, and with parentheses around the letter. -/
def spacedDefinition : Node :=
  .branch .functionDefinition ⟨0, 0⟩
    [signAt 0 "def", (identifierAt 4 "f").withRole .name, signAt 7 ":",
      (Node.branch .block ⟨0, 9⟩
        [commentAt 9, .branch .expressionStatement ⟨1, 9⟩
          [.branch .parenthesized ⟨0, 9⟩ [signAt 9 "(", quotedAt 10, signAt 13 ")"]]]).withRole
        .body]

theorem respaced_spacedDefinition : Respaced plainDefinition spacedDefinition := by
  apply respaced_branch (by decide)
  refine .node (respaced_leaf _ _ _ _ _) (.node (respaced_leaf _ _ _ _ _)
    (.node (respaced_leaf _ _ _ _ _) (.node (respaced_branch (by decide) _ _ _ ?_) .nil)))
  refine .trivia ⟨rfl, rfl⟩ (.node (respaced_branch (by decide) _ _ _ ?_) .nil)
  exact .node (respaced_quotedInParentheses _ (by decide) 9) .nil

theorem respaced_reads_same_iff_spacedCall :
    Respaced plainCall spacedCall ∧ ((keywordValues plainCall).map Prod.fst).Nodup ∧
      constantKeywords spacedCall = constantKeywords plainCall ∧
      Respaced plainDefinition spacedDefinition ∧
      docstring? spacedDefinition = docstring? plainDefinition := by
  obtain ⟨_, hkeeps, _⟩ := (respaced_reads_same_iff respaced_spacedCall).2.1 rfl
  have hdocstring := (respaced_reads_same_iff respaced_spacedDefinition).2.2 (.inl rfl)
  refine ⟨respaced_spacedCall, by decide, hkeeps ?_, respaced_spacedDefinition,
    hdocstring.mpr (.inr ⟨_, rfl, tidy_quotedInParentheses none 9⟩)⟩
  intro pair hpair
  rcases List.mem_cons.mp hpair with rfl | hpair
  · exact .inr (tidy_quotedInParentheses _ 4)
  · rcases List.mem_cons.mp hpair with rfl | hpair
    · exact .inr (.other (by decide))
    · exact absurd hpair List.not_mem_nil

def quotedInParentheses : Node :=
  .branch .parenthesized ⟨0, 0⟩ [signAt 0 "(", quotedAt 1, signAt 4 ")"]

/-- The letter in parentheses, with a comment behind it. -/
def quotedBeforeComment : Node :=
  .branch .parenthesized ⟨0, 0⟩
    [signAt 0 "(", quotedAt 1, commentAt 6, .leaf .token ⟨1, 0⟩ ")"]

theorem respaced_quotedBeforeComment : Respaced quotedInParentheses quotedBeforeComment :=
  respaced_branch (by decide) _ _ _
    (.node (respaced_leaf _ _ _ _ _) (.node (respaced_leaf _ _ _ _ _)
      (.trivia ⟨rfl, rfl⟩ (.node (respaced_leaf _ _ _ _ _) .nil))))

private theorem isSome_constant?_quotedAt (column : Nat) :
    (constant? (quotedAt column)).isSome := by
  have hplain : plainString? (quotedAt column) = Text.decodeStringToken "\"x\"" := rfl
  rw [constant?_of_string rfl, Option.isSome_map, hplain, Text.decodeStringToken,
    Option.isSome_map, Text.decodeToken, if_neg (by decide), Option.isSome_map]
  decide

theorem not_constant?_of_respaced :
    ¬ ∀ m n : Node, Respaced m n → constant? n = constant? m := by
  intro hall
  have hsame := hall _ _ respaced_quotedBeforeComment
  have hnone : constant? quotedBeforeComment = none := by
    rw [constant?_of_parenthesized rfl]
    rfl
  have hsome : constant? quotedInParentheses = constant? (quotedAt 1) := by
    rw [constant?_of_parenthesized rfl]
    rfl
  have hquoted := isSome_constant?_quotedAt 1
  rw [← hsome, ← hsame, hnone] at hquoted
  contradiction

end FlowSurvey
