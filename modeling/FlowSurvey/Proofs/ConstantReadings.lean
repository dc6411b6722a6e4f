import FlowSurvey.Proofs.ConstantMeanings
import FlowSurvey.Proofs.RecordSchema
import FlowSurvey.Proofs.RespacedReadings

/-!
# Constants and keywords that are read right

The keywords of a call are recorded with the constants among their values, and of several
keywords of one name the last one that has a constant counts.  What is recorded is what was
written out, unless decimal digits that are no literal are taken for an integer.
-/

namespace FlowSurvey

open Syntax

/-! ## Keywords -/

/-- The keywords among the arguments of a call. -/
def keywordArguments (call : Node) : List Node :=
  match call.child? .arguments with
  | some arguments => arguments.children.filter (·.kind = .keywordArgument)
  | none => []

/-- The last of the keywords of a name that have a value has this one. -/
def LastKeyword (means : Node → Json → Prop) (keywords : List (String × Node)) (name : String)
    (value : Json) : Prop :=
  ∃ before n after, keywords = before ++ (name, n) :: after ∧ means n value ∧
    ∀ later, (name, later) ∈ after → ∀ other, ¬ means later other

theorem keywordValues_eq_filterMap (call : Node) :
    keywordValues call = (keywordArguments call).filterMap keywordValue? := by
  unfold keywordValues keywordArguments
  cases call.child? .arguments with
  | none => rfl
  | some arguments =>
    rw [List.filterMap_filter]
    refine List.filterMap_congr fun argument _ => ?_
    unfold keywordValue?
    split <;> simp_all

/-- What is no keyword contributes nothing. -/
theorem constantKeywords_congr {call other : Node}
    (hsame : keywordArguments other = keywordArguments call) :
    constantKeywords other = constantKeywords call := by
  rw [constantKeywords_eq, constantKeywords_eq, keywordValues_eq_filterMap,
    keywordValues_eq_filterMap, hsame]

theorem isBare_of_mem_keywordValues {call : Node} (hcall : call.IsBare) {keyword : String × Node}
    (hkeyword : keyword ∈ keywordValues call) : keyword.2.IsBare := by
  have hchild {n : Node} (hn : n.IsBare) {role : Role} {child : Node}
      (hfound : n.child? role = some child) : child.IsBare :=
    hn.child (List.mem_of_find?_eq_some hfound)
  unfold keywordValues at hkeyword
  cases harguments : call.child? .arguments with
  | none => simp [harguments] at hkeyword
  | some arguments =>
    rw [harguments] at hkeyword
    obtain ⟨argument, hmem, hvalue⟩ := List.mem_filterMap.mp hkeyword
    have hargument := (hchild hcall harguments).child hmem
    rw [keywordValue?, Option.ite_none_right_eq_some] at hvalue
    obtain ⟨name, -, hvalue⟩ := Option.bind_eq_some_iff.mp hvalue.2
    obtain ⟨value, hfound, hvalue⟩ := Option.bind_eq_some_iff.mp hvalue
    cases hvalue
    exact hchild hargument hfound

theorem Json.lookup_fieldsOfList_concat (name : String) (fields : List (String × Json))
    (field : String × Json) :
    lookup name (fieldsOfList (fields ++ [field])) =
      if name = field.1 then some field.2 else lookup name (fieldsOfList fields) := by
  rw [fieldsOfList, List.foldl_concat, lookup_insertField]
  rfl

section

variable {means : Node → Json → Prop} {keywords : List (String × Node)} {name : String}
  {value : Json}

theorem lastKeyword_concat {keyword : String × Node} :
    LastKeyword means (keywords ++ [keyword]) name value ↔
      keyword.1 = name ∧ means keyword.2 value ∨
        ¬ (keyword.1 = name ∧ ∃ other, means keyword.2 other) ∧
          LastKeyword means keywords name value := by
  constructor
  · rintro ⟨before, n, after, hsplit, hmeans, hafter⟩
    -- The keyword at the end is the one that is found or stands behind it.
    rcases List.eq_nil_or_concat after with rfl | ⟨more, last, rfl⟩
    · obtain ⟨-, hlast⟩ := List.append_inj' hsplit rfl
      obtain rfl : keyword = (name, n) := List.singleton_inj.mp hlast
      exact .inl ⟨rfl, hmeans⟩
    · rw [List.concat_eq_append, ← List.cons_append, ← List.append_assoc] at hsplit
      obtain ⟨rfl, hlast⟩ := List.append_inj' hsplit rfl
      obtain rfl : keyword = last := List.singleton_inj.mp hlast
      refine .inr ⟨?_, before, n, more, rfl, hmeans, fun later hlater => hafter later ?_⟩
      · rintro ⟨rfl, other, hother⟩
        exact hafter keyword.2 (by simp) other hother
      · simp [hlater]
  · rintro (⟨rfl, hmeans⟩ | ⟨hnot, before, n, after, rfl, hmeans, hafter⟩)
    · exact ⟨keywords, keyword.2, [], rfl, hmeans, fun _ hlater => absurd hlater List.not_mem_nil⟩
    · refine ⟨before, n, after ++ [keyword], by simp, hmeans, fun later hlater other hother => ?_⟩
      rcases List.mem_append.mp hlater with hmem | hlast
      · exact hafter later hmem other hother
      · obtain rfl : (name, later) = keyword := List.mem_singleton.mp hlast
        exact hnot ⟨rfl, other, hother⟩

theorem LastKeyword.congr {means' : Node → Json → Prop}
    (hmeans : ∀ n, (name, n) ∈ keywords → ∀ value, means n value ↔ means' n value) :
    LastKeyword means keywords name value ↔ LastKeyword means' keywords name value := by
  have hhalf {p q : Node → Json → Prop}
      (hpq : ∀ n, (name, n) ∈ keywords → ∀ value, p n value ↔ q n value) :
      LastKeyword p keywords name value → LastKeyword q keywords name value := by
    rintro ⟨before, n, after, rfl, hmeans, hafter⟩
    refine ⟨before, n, after, rfl, (hpq n (by simp) value).mp hmeans, fun later hlater other => ?_⟩
    rw [← hpq later (by simp [hlater])]
    exact hafter later hlater other
  exact ⟨hhalf hmeans, hhalf fun n hn value => (hmeans n hn value).symm⟩

theorem lookup_constantsAmong_eq_some_iff :
    Json.lookup name (Json.fieldsOfList (constantsAmong keywords)) = some value ↔
      LastKeyword (fun n value => constant? n = some value) keywords name value := by
  induction keywords using List.reverseRecOn with
  | nil =>
    refine iff_of_false (by simp [constantsAmong, Json.fieldsOfList, Json.lookup]) ?_
    rintro ⟨before, n, after, hsplit, -⟩
    simp at hsplit
  | append_singleton keywords keyword ih =>
    have hconcat : constantsAmong (keywords ++ [keyword]) =
        constantsAmong keywords ++ constantsAmong [keyword] := List.filterMap_append
    rw [lastKeyword_concat, hconcat]
    cases hvalue : constant? keyword.2 with
    | none =>
      have hlast : constantsAmong [keyword] = [] := by simp [constantsAmong, hvalue]
      rw [hlast, List.append_nil, ih]
      simp
    | some found =>
      have hlast : constantsAmong [keyword] = [(keyword.1, found)] := by
        simp [constantsAmong, hvalue]
      rw [hlast, Json.lookup_fieldsOfList_concat, ← ih]
      by_cases hname : name = keyword.1
      · simp [hname]
      · simp [hname, Ne.symm hname]

end

/-! ## Readings -/

/-- The keywords of a name are recorded with the last of the constants that they have. -/
def RecordsConstants (call : Node) (name : String) : Prop :=
  ∀ value, Json.lookup name (constantKeywords call) = some value ↔
    LastKeyword Node.StandsFor (keywordValues call) name value

def MisreadsKeyword (call : Node) (name : String) : Prop :=
  ∃ n value, (name, n) ∈ keywordValues call ∧ n.MisreadAs value

section

variable {call n : Node} {name : String}

theorem recordsConstants_of_not_misreadsKeyword (hcall : call.IsBare)
    (hname : ¬ MisreadsKeyword call name) : RecordsConstants call name := by
  intro value
  rw [constantKeywords_eq, lookup_constantsAmong_eq_some_iff]
  refine LastKeyword.congr fun n hn value => ?_
  have hmisread : ¬ n.MisreadAs value := fun hmisread => hname ⟨n, value, hn, hmisread⟩
  rw [(isBare_of_mem_keywordValues hcall hn).constant?_eq_some_iff, or_iff_left hmisread]

/-- Of keywords with different names, none can stand in for another one that is misread. -/
theorem not_misreadsKeyword_of_recordsConstants (hcall : call.IsBare)
    (hnames : ((keywordValues call).map Prod.fst).Nodup) (hname : RecordsConstants call name) :
    ¬ MisreadsKeyword call name := by
  rintro ⟨n, value, hn, hmisread⟩
  have hvalue := (isBare_of_mem_keywordValues hcall hn).constant?_eq_some_iff.mpr (.inr hmisread)
  have hunique {other : Node} (hother : (name, other) ∈ keywordValues call) : other = n :=
    congrArg Prod.snd (List.inj_on_of_nodup_map hnames hother hn rfl)
  have hlast : LastKeyword (fun n value => constant? n = some value) (keywordValues call) name
      value := by
    obtain ⟨before, after, hsplit⟩ := List.append_of_mem hn
    refine ⟨before, n, after, hsplit, hvalue, fun later hlater => ?_⟩
    rw [hsplit, List.map_append, List.map_cons, List.nodup_append, List.nodup_cons] at hnames
    exact absurd (List.mem_map_of_mem hlater) hnames.2.1.1
  rw [← lookup_constantsAmong_eq_some_iff, ← constantKeywords_eq] at hlast
  obtain ⟨before, other, after, hsplit, hstands, -⟩ := (hname value).mp hlast
  obtain rfl := hunique (show (name, other) ∈ keywordValues call by simp [hsplit])
  exact hmisread.not_standsFor hstands

/--
A bare expression is read as the constant that stands in its parentheses, or as the value of
decimal digits that are no literal, and the constants are read right exactly if there are no
such digits.  One formatted part leaves nothing of strings that follow one another.  Keywords
are recorded with the last of their constants unless one of them is misread, and if their names
differ only then; nothing else among the arguments contributes to them.
-/
theorem constants_read_right_iff (hn : n.IsBare) :
    ((∀ value, constant? n = some value ↔ n.StandsFor value ∨ n.MisreadAs value) ∧
        ((∀ value, constant? n = some value ↔ n.StandsFor value) ↔
          ∀ value, ¬ n.MisreadAs value)) ∧
      (∀ core, n.Parenthesizes core → core.kind = .concatenatedString →
        (∃ part ∈ core.namedChildren, part.IsFormatted) → constant? n = none) ∧
      (∀ name, ¬ MisreadsKeyword n name → RecordsConstants n name) ∧
      (((keywordValues n).map Prod.fst).Nodup →
        ∀ name, RecordsConstants n name → ¬ MisreadsKeyword n name) ∧
      ((constantKeywords n).Pairwise fun a b => a.1 < b.1) ∧
      ∀ other, keywordArguments other = keywordArguments n →
        constantKeywords other = constantKeywords n := by
  have hread (value : Json) : constant? n = some value ↔ n.StandsFor value ∨ n.MisreadAs value :=
    hn.constant?_eq_some_iff
  refine ⟨⟨hread, ?_⟩, ?_, ?_, ?_, ?_, ?_⟩
  · constructor
    · intro hright value hmisread
      exact hmisread.not_standsFor ((hright value).mp ((hread value).mpr (.inr hmisread)))
    · intro hnone value
      rw [hread value, or_iff_left (hnone value)]
  · rintro core hcore hkind ⟨part, hpart, hformatted⟩
    exact constant?_of_isFormatted hcore hkind hpart hformatted
  · exact fun name => recordsConstants_of_not_misreadsKeyword hn
  · exact fun hnames name => not_misreadsKeyword_of_recordsConstants hn hnames
  · rw [constantKeywords_eq]
    exact (Json.fieldsOfList_spec _).1
  · exact fun other => constantKeywords_congr

end

/-! ### Examples -/

private def signNode (column : Nat) (text : String) : Node :=
  .leaf .token ⟨0, column⟩ text

private def nameNode (column : Nat) (text : String) : Node :=
  .leaf .identifier ⟨0, column⟩ text

/-- The number thirty-one. -/
private def integerNode (column : Nat) : Node :=
  .leaf .integer ⟨0, column⟩ "0x1_F"

private def letterNode (column : Nat) : Node :=
  .leaf .string ⟨0, column⟩ "'u'"

private def lettersInParentheses (column : Nat) : Node :=
  .branch .parenthesized ⟨0, column⟩
    [signNode column "(",
      .branch .concatenatedString ⟨0, column + 1⟩
        [letterNode (column + 1), letterNode (column + 5)],
      signNode (column + 8) ")"]

private def keywordNode (column : Nat) (name : String) (value : Node) : Node :=
  .branch .keywordArgument ⟨0, column⟩
    [(nameNode column name).withRole .name, signNode (column + 1) "=", value.withRole .value]

/-- A call with a keyword that is given twice, a hexadecimal number, and other arguments. -/
def mixedCall : Node :=
  .branch .call ⟨0, 0⟩
    [(nameNode 0 "f").withRole .function,
      (Node.branch .argumentList ⟨0, 1⟩
        [signNode 1 "(", nameNode 2 "a", signNode 3 ",",
          keywordNode 5 "x" (integerNode 7), signNode 12 ",",
          keywordNode 14 "x" (lettersInParentheses 16), signNode 25 ",",
          keywordNode 27 "y" (integerNode 29), signNode 34 ",",
          .branch .dictionarySplat ⟨0, 36⟩ [signNode 36 "**", nameNode 38 "c"],
          signNode 39 ")"]).withRole .arguments]

private theorem integer_toList : "0x1_F".toList = ['0', 'x', '1', '_', 'F'] := by rfl

private theorem isQuoted_letter : IsQuoted [] "'u'".toList :=
  ⟨⟨'\'', false, by decide⟩, ['u'], List.forall_mem_nil _, by decide, by rfl⟩

private theorem isBare_branch {kind : Kind}
    (hkind : kind.isTrivia = false ∧ kind ≠ .string ∧ kind ≠ .integer) (role : Option Role)
    (start : Place) (text : String) {children : List Node} (hchildren : ∀ n ∈ children, n.IsBare) :
    Node.IsBare ⟨kind, role, start, text, children⟩ := by
  rw [Node.isBare_iff]
  exact ⟨⟨hkind.1, fun h => absurd h hkind.2.1, fun h => absurd h hkind.2.2⟩, hchildren⟩

private theorem isBare_signNode (column : Nat) (text : String) : (signNode column text).IsBare :=
  isBare_branch (by decide) _ _ _ (List.forall_mem_nil _)

private theorem isBare_nameNode (column : Nat) (text : String) (role : Option Role) :
    Node.IsBare { nameNode column text with role := role } :=
  @isBare_branch .identifier (by decide) _ _ _ _ (List.forall_mem_nil _)

private theorem isBare_integerNode (column : Nat) :
    ((integerNode column).withRole .value).IsBare := by
  have htoken : IsIntegerToken "0x1_F".toList :=
    integer_toList ▸ ⟨['0', 'x', '1', '_', 'F', ','], by decide, by decide⟩
  exact Node.isBare_iff.mpr
    ⟨⟨rfl, fun h => by contradiction, fun _ => htoken⟩, List.forall_mem_nil _⟩

private theorem isBare_letterNode (column : Nat) : (letterNode column).IsBare :=
  Node.isBare_iff.mpr
    ⟨⟨rfl, fun _ => .inl ⟨[], isQuoted_letter⟩, fun h => by contradiction⟩, List.forall_mem_nil _⟩

private theorem isBare_lettersInParentheses (column : Nat) :
    ((lettersInParentheses column).withRole .value).IsBare := by
  simp only [lettersInParentheses, Node.branch, Node.withRole]
  refine isBare_branch (by decide) _ _ _ ?_
  simp only [List.forall_mem_cons]
  refine ⟨isBare_signNode _ _, isBare_branch (by decide) _ _ _ ?_, isBare_signNode _ _,
    List.forall_mem_nil _⟩
  simp only [List.forall_mem_cons]
  exact ⟨isBare_letterNode _, isBare_letterNode _, List.forall_mem_nil _⟩

private theorem isBare_keywordNode (column : Nat) (name : String) {value : Node}
    (hvalue : (value.withRole .value).IsBare) : (keywordNode column name value).IsBare := by
  refine isBare_branch (by decide) _ _ _ ?_
  simp only [List.forall_mem_cons]
  exact ⟨isBare_nameNode _ _ _, isBare_signNode _ _, hvalue, List.forall_mem_nil _⟩

theorem isBare_mixedCall : mixedCall.IsBare := by
  simp only [mixedCall, Node.branch, Node.withRole]
  refine isBare_branch (by decide) _ _ _ ?_
  simp only [List.forall_mem_cons]
  refine ⟨isBare_nameNode _ _ _, isBare_branch (by decide) _ _ _ ?_, List.forall_mem_nil _⟩
  simp only [List.forall_mem_cons]
  refine ⟨isBare_signNode _ _, isBare_nameNode _ _ _, isBare_signNode _ _,
    isBare_keywordNode _ _ (isBare_integerNode _), isBare_signNode _ _,
    isBare_keywordNode _ _ (isBare_lettersInParentheses _), isBare_signNode _ _,
    isBare_keywordNode _ _ (isBare_integerNode _), isBare_signNode _ _,
    isBare_branch (by decide) _ _ _ ?_, isBare_signNode _ _, List.forall_mem_nil _⟩
  simp only [List.forall_mem_cons]
  exact ⟨isBare_signNode _ _, isBare_nameNode _ _ _, List.forall_mem_nil _⟩

private theorem standsFor_integerNode (column : Nat) :
    ((integerNode column).withRole .value).StandsFor (.ofNat 31) := by
  refine ⟨_, .refl _, .integer rfl ?_ (by decide)⟩
  exact integer_toList ▸ @IsIntegerLiteral.inBase 'x' 16 [] _ _ _ (by decide) (.inl rfl)
    (.underscore _ (.single _)) rfl

private theorem plainText_letterNode (column : Nat) : (letterNode column).plainText = "u" := by
  have hletter : "'u'".toList = Text.Quotes.enclose ⟨'\'', false, by decide⟩ [] ['u'] := by rfl
  have hdecoded : Text.decodeToken "'u'".toList = some ['u'] := by
    rw [hletter, Text.decodeToken_enclose_of_closes (List.forall_mem_nil _) rfl (by decide),
      Text.unescape_plain (by decide), Text.unescape_nil]
    rfl
  rw [Node.plainText, letterNode, Node.leaf, Text.decodeStringToken, hdecoded]
  rfl

private theorem standsFor_lettersInParentheses (column : Nat) :
    ((lettersInParentheses column).withRole .value).StandsFor (.str "uu") := by
  have hplain (k : Nat) : (letterNode k).IsPlainString :=
    ⟨rfl, List.forall_mem_nil _, [], isQuoted_letter, List.forall_mem_nil _⟩
  have htext : String.join ([letterNode (column + 1), letterNode (column + 5)].map
      Node.plainText) = "uu" := by
    rw [List.map_cons, List.map_singleton, plainText_letterNode, plainText_letterNode]
    rfl
  refine ⟨_, .parenthesized rfl rfl (.refl _), htext ▸ .concatenated rfl ?_⟩
  exact List.forall_mem_cons.mpr ⟨hplain _, List.forall_mem_singleton.mpr (hplain _)⟩

theorem constants_read_right_iff_mixedCall :
    mixedCall.IsBare ∧ Json.lookup "x" (constantKeywords mixedCall) = some (.str "uu") ∧
      Json.lookup "y" (constantKeywords mixedCall) = some (.ofNat 31) := by
  obtain ⟨-, -, hrecords, -⟩ := constants_read_right_iff isBare_mixedCall
  have hkeywords : keywordValues mixedCall =
      [("x", (integerNode 7).withRole .value), ("x", (lettersInParentheses 16).withRole .value),
        ("y", (integerNode 29).withRole .value)] := by rfl
  have hright (name : String) : RecordsConstants mixedCall name := by
    refine hrecords name ?_
    rintro ⟨n, value, hn, hmisread⟩
    simp only [hkeywords, List.mem_cons, Prod.mk.injEq, List.not_mem_nil, or_false] at hn
    rcases hn with ⟨-, rfl⟩ | ⟨-, rfl⟩ | ⟨-, rfl⟩
    · exact hmisread.not_standsFor (standsFor_integerNode 7)
    · exact hmisread.not_standsFor (standsFor_lettersInParentheses 16)
    · exact hmisread.not_standsFor (standsFor_integerNode 29)
  refine ⟨isBare_mixedCall, (hright "x" _).mpr ?_, (hright "y" _).mpr ?_⟩
  · exact ⟨[_], _, [_], hkeywords, standsFor_lettersInParentheses 16, by simp⟩
  · exact ⟨[_, _], _, [], hkeywords, standsFor_integerNode 29, by simp⟩

/-- Decimal digits with a zero in front. -/
def leadingZero : Node :=
  .leaf .integer ⟨0, 0⟩ "0777"

theorem isBare_leadingZero : leadingZero.IsBare := by
  have htext : "0777".toList = ['0', '7', '7', '7'] := by rfl
  have htoken : IsIntegerToken "0777".toList :=
    htext ▸ ⟨['0', '7', '7', '7'], by decide, by decide⟩
  exact Node.isBare_iff.mpr
    ⟨⟨rfl, fun h => by contradiction, fun _ => htoken⟩, List.forall_mem_nil _⟩

theorem misreadAs_leadingZero : leadingZero.MisreadAs (.ofNat 777) := by
  have hgrouped : Grouped ['0', '7', '7', '7'] ['0', '7', '7', '7'] :=
    .digit _ (.digit _ (.digit _ (.single _)))
  exact ⟨leadingZero, 777, .refl _, rfl, ⟨_, _, hgrouped, rfl, .inr ⟨rfl, rfl, by decide⟩⟩,
    by decide, rfl⟩

theorem not_constant?_eq_some_iff_standsFor :
    ¬ ∀ n : Node, n.IsBare → ∀ value, constant? n = some value ↔ n.StandsFor value := by
  intro hall
  have hvalue := isBare_leadingZero.constant?_eq_some_iff.mpr (.inr misreadAs_leadingZero)
  exact misreadAs_leadingZero.not_standsFor ((hall _ isBare_leadingZero _).mp hvalue)

end FlowSurvey
