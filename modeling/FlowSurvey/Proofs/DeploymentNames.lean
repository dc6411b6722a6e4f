import FlowSurvey.Failure
import Mathlib.Data.List.Infix

/-!
# Deployment names read back

The separator is found from the left and without overlap, so a hyphen at the edge of a part
can shift the place where a name is split.  A text is split into pieces of which none holds
the separator and none but the last ends in a hyphen, and such pieces are found again when
they are joined.  From this follows when the parts of a name are found again in the text that
it is rendered to.  A text is no name if it has too few pieces or an empty one, and is then
reported as it is.
-/

namespace FlowSurvey.DeploymentName

/-! ## Pieces -/

theorem pieces_ne_nil (cs : List Char) : pieces cs ≠ [] := by
  fun_cases pieces cs <;> simp

theorem pieces_cons
    {c : Char} {rest : List Char} (hc : ¬ ['-', '-'] <+: c :: rest) :
    pieces (c :: rest) = (pieces rest).modifyHead (c :: ·) := by
  rw [pieces]
  · split
    next hrest => exact absurd hrest (pieces_ne_nil rest)
    next piece more hrest => rw [hrest, List.modifyHead_cons]
  · rintro more rfl rfl
    exact hc ⟨more, rfl⟩

/-- Nothing is lost between the pieces. -/
theorem intercalate_pieces (cs : List Char) : ['-', '-'].intercalate (pieces cs) = cs := by
  fun_induction pieces cs with
  | case1 rest ih =>
    rw [List.intercalate_cons_of_ne_nil (pieces_ne_nil rest), ih]
    rfl
  | case2 c rest _ hrest => exact absurd hrest (pieces_ne_nil rest)
  | case3 c rest _ piece more hrest ih =>
    rw [List.intercalate_cons_cons_left, ← hrest, ih]
  | case4 => rfl

/-- What a text starts with, if the pieces it is split into are known. -/
theorem prefix_of_pieces_eq_cons
    {cs piece : List Char} {more : List (List Char)} (hcs : pieces cs = piece :: more) :
    piece <+: cs ∧ (more ≠ [] → piece ++ ['-', '-'] <+: cs) := by
  have hjoined := intercalate_pieces cs
  rw [hcs] at hjoined
  cases more with
  | nil =>
    rw [List.intercalate_singleton] at hjoined
    exact ⟨hjoined ▸ List.prefix_refl piece, fun hne => absurd rfl hne⟩
  | cons second rest =>
    rw [List.intercalate_cons_cons] at hjoined
    exact ⟨⟨_, by rw [← hjoined, List.append_assoc]⟩, fun _ => ⟨_, hjoined⟩⟩

theorem no_separator_of_mem_pieces
    {cs piece : List Char} (hpiece : piece ∈ pieces cs) : ¬ ['-', '-'] <:+: piece := by
  fun_induction pieces cs generalizing piece with
  | case1 rest ih =>
    rcases List.mem_cons.mp hpiece with rfl | hrest
    · simp
    · exact ih hrest
  | case2 c rest _ hrest => exact absurd hrest (pieces_ne_nil rest)
  | case3 c rest hc first more hrest ih =>
    rw [hrest] at ih
    rcases List.mem_cons.mp hpiece with rfl | hmore
    · intro hinfix
      rcases List.infix_cons_iff.mp hinfix with hprefix | hinfix
      · obtain ⟨hhyphen, hfirst⟩ := List.cons_prefix_cons.mp hprefix
        obtain ⟨tail, htail⟩ := hfirst.trans (prefix_of_pieces_eq_cons hrest).1
        exact hc tail hhyphen.symm htail.symm
      · exact ih List.mem_cons_self hinfix
    · exact ih (List.mem_cons_of_mem _ hmore)
  | case4 => simp_all

theorem getLast?_ne_of_mem_dropLast_pieces
    {cs piece : List Char} (hpiece : piece ∈ (pieces cs).dropLast) :
    piece.getLast? ≠ some '-' := by
  fun_induction pieces cs generalizing piece with
  | case1 rest ih =>
    rw [List.dropLast_cons_of_ne_nil (pieces_ne_nil rest)] at hpiece
    rcases List.mem_cons.mp hpiece with rfl | hrest
    · simp
    · exact ih hrest
  | case2 c rest _ hrest => exact absurd hrest (pieces_ne_nil rest)
  | case3 c rest hc first more hrest ih =>
    cases more with
    | nil => simp at hpiece
    | cons second later =>
      rw [hrest, List.dropLast_cons_of_ne_nil (by simp)] at ih
      rw [List.dropLast_cons_of_ne_nil (by simp)] at hpiece
      rcases List.mem_cons.mp hpiece with rfl | hmore
      · cases first with
        | nil =>
          -- The separator comes at once, so a hyphen before it would have been part of it.
          obtain ⟨tail, htail⟩ := (prefix_of_pieces_eq_cons hrest).2 (by simp)
          simpa using fun hhyphen => hc _ hhyphen htail.symm
        | cons d tail => simpa using ih List.mem_cons_self
      · exact ih (List.mem_cons_of_mem _ hmore)
  | case4 => simp at hpiece

theorem pieces_of_no_separator {cs : List Char} (hcs : ¬ ['-', '-'] <:+: cs) :
    pieces cs = [cs] := by
  induction cs with
  | nil => rfl
  | cons c rest ih =>
    rw [List.infix_cons_iff, not_or] at hcs
    rw [pieces_cons hcs.1, ih hcs.2]
    rfl

/-- Behind a text that does not end in a hyphen, a separator is found where it stands. -/
theorem pieces_append_separator
    {xs : List Char} (hxs : xs.getLast? ≠ some '-') (ys : List Char) :
    pieces (xs ++ '-' :: '-' :: ys) = pieces xs ++ pieces ys := by
  fun_induction pieces xs with
  | case1 rest ih =>
    have hrest : rest.getLast? ≠ some '-' := by
      cases rest with
      | nil => exact absurd rfl hxs
      | cons c more => simpa using hxs
    change [] :: pieces (rest ++ '-' :: '-' :: ys) = _
    rw [ih hrest]
    rfl
  | case2 c rest _ hrest => exact absurd hrest (pieces_ne_nil rest)
  | case3 c rest hc piece more hrest ih =>
    have hstart : ¬ ['-', '-'] <+: c :: (rest ++ '-' :: '-' :: ys) := by
      intro hprefix
      obtain ⟨hhyphen, hbehind⟩ := List.cons_prefix_cons.mp hprefix
      cases rest with
      | nil => exact hxs (by rw [← hhyphen]; rfl)
      | cons d tail =>
        exact hc tail hhyphen.symm (by rw [(List.cons_prefix_cons.mp hbehind).1])
    have hlast : rest.getLast? ≠ some '-' := by
      cases rest with
      | nil => simp
      | cons d more => simpa using hxs
    rw [List.cons_append, pieces_cons hstart, ih hlast, hrest]
    rfl
  | case4 => rfl

/-- Pieces that a text can be split into are found again in what they are joined to. -/
theorem pieces_intercalate
    {ps : List (List Char)} (hne : ps ≠ []) (hwhole : ∀ p ∈ ps, ¬ ['-', '-'] <:+: p)
    (hedges : ∀ p ∈ ps.dropLast, p.getLast? ≠ some '-') :
    pieces (['-', '-'].intercalate ps) = ps := by
  induction ps with
  | nil => exact absurd rfl hne
  | cons p rest ih =>
    have hp := pieces_of_no_separator (hwhole p List.mem_cons_self)
    cases rest with
    | nil => rw [List.intercalate_singleton, hp]
    | cons q more =>
      rw [List.dropLast_cons_of_ne_nil (by simp)] at hedges
      have hrest := ih (by simp) (fun r hr => hwhole r (List.mem_cons_of_mem p hr))
        (fun r hr => hedges r (List.mem_cons_of_mem p hr))
      rw [List.intercalate_cons_cons, List.append_assoc, List.cons_append, List.singleton_append,
        pieces_append_separator (hedges p List.mem_cons_self), hp, hrest]
      rfl

theorem intercalate_concat {ps : List (List Char)} (hps : ps ≠ []) (last : List Char) :
    ['-', '-'].intercalate (ps ++ [last]) = ['-', '-'].intercalate ps ++ '-' :: '-' :: last := by
  induction ps with
  | nil => exact absurd rfl hps
  | cons p rest ih =>
    cases rest with
    | nil => simp [List.intercalate_cons_cons]
    | cons q more =>
      have hne : q :: more ++ [last] ≠ [] := List.append_ne_nil_of_left_ne_nil (by simp) _
      rw [List.cons_append, List.intercalate_cons_of_ne_nil hne, ih (by simp),
        List.intercalate_cons_cons, List.append_assoc _ _ ('-' :: '-' :: last)]

theorem getLast?_intercalate_concat
    (ps : List (List Char)) {last : List Char} (hlast : last ≠ []) :
    (['-', '-'].intercalate (ps ++ [last])).getLast? = last.getLast? := by
  by_cases hps : ps = []
  · rw [hps, List.nil_append, List.intercalate_singleton]
  · rw [intercalate_concat hps, List.getLast?_append, List.getLast?_cons_cons,
      List.getLast?_cons, List.getLast?_eq_some_getLast hlast]
    rfl

/-! ## Parts -/

theorem separator_toList : separator.toList = ['-', '-'] := by
  rfl

theorem toList_intercalate_separator (ps : List (List Char)) :
    (separator.intercalate (ps.map String.ofList)).toList = ['-', '-'].intercalate ps := by
  simp [separator_toList, Function.comp_def]

theorem parse?_of_pieces
    {text : String} {project branch last : List Char} {middle : List (List Char)}
    (hpieces : pieces text.toList = project :: branch :: (middle ++ [last]))
    (hmiddle : middle ≠ []) (hfull : ∀ piece ∈ pieces text.toList, piece ≠ []) :
    parse? text = some ⟨.ofList project, .ofList branch,
      .ofList (['-', '-'].intercalate middle), .ofList last⟩ := by
  obtain ⟨first, second, more, hrest⟩ :
      ∃ first second more, middle ++ [last] = first :: second :: more := by
    obtain ⟨first, init, rfl⟩ := List.exists_cons_of_ne_nil hmiddle
    obtain ⟨second, more, hinit⟩ := List.exists_cons_of_ne_nil (List.concat_ne_nil last init)
    exact ⟨first, second, more, by rw [List.cons_append, hinit]⟩
  have hparts : ((pieces text.toList).map String.ofList).any String.isEmpty = false := by
    simpa using hfull
  have hflow : separator.intercalate ((first :: second :: more).map String.ofList).dropLast =
      String.ofList (['-', '-'].intercalate middle) := by
    rw [← hrest, ← toList_intercalate_separator, String.ofList_toList, List.map_append,
      List.map_singleton, List.dropLast_concat]
  have hlast : ((first :: second :: more).map String.ofList).getLastD "" = .ofList last := by
    rw [← hrest, List.map_append, List.map_singleton, List.getLastD_concat]
  rw [← hflow, ← hlast, parse?, hparts, hpieces, hrest]
  rfl

theorem exists_pieces_of_parse?
    {text : String} {d : DeploymentName} (htext : parse? text = some d) :
    ∃ middle, middle ≠ [] ∧
      pieces text.toList =
        d.project.toList :: d.branch.toList :: (middle ++ [d.environment.toList]) ∧
      d.flow.toList = ['-', '-'].intercalate middle ∧
      ∀ piece ∈ pieces text.toList, piece ≠ [] := by
  simp only [parse?] at htext
  split at htext
  next => simp at htext
  next hfull =>
    split at htext
    next project branch first second more hparts =>
      obtain rfl := Option.some.inj htext
      have hpieces : pieces text.toList =
          (project :: branch :: first :: second :: more).map String.toList := by
        simp [← hparts, Function.comp_def]
      have hrest : (first :: second :: more).dropLast ++ [(first :: second :: more).getLastD ""] =
          first :: second :: more := by
        rw [List.getLastD_eq_getLast?, List.getLast?_eq_some_getLast (by simp)]
        exact List.dropLast_append_getLast (by simp)
      refine ⟨(first :: second :: more).dropLast.map String.toList, by simp, ?_, ?_, ?_⟩
      · rw [hpieces, ← List.map_singleton, ← List.map_append, hrest]
        rfl
      · rw [← toList_intercalate_separator]
        simp [Function.comp_def]
      · rintro _ hpiece rfl
        exact hfull (by simpa using hpiece)
    next => simp at htext

theorem parse?_eq_none_iff {text : String} :
    parse? text = none ↔ (pieces text.toList).length < 4 ∨ [] ∈ pieces text.toList := by
  constructor
  · intro hnone
    by_contra hpieces
    rw [not_or, Nat.not_lt] at hpieces
    obtain ⟨hlength, hfull⟩ := hpieces
    rcases hparts : pieces text.toList with _ | ⟨project, _ | ⟨branch, rest⟩⟩
    · simp [hparts] at hlength
    · simp [hparts] at hlength
    · rcases List.eq_nil_or_concat' rest with rfl | ⟨middle, last, rfl⟩
      · simp [hparts] at hlength
      · have hmiddle : middle ≠ [] := by
          rintro rfl
          simp [hparts] at hlength
        have hsome := parse?_of_pieces hparts hmiddle fun piece hpiece hnil =>
          hfull (hnil ▸ hpiece)
        rw [hnone] at hsome
        cases hsome
  · intro hpieces
    rw [Option.eq_none_iff_forall_ne_some]
    intro d hd
    obtain ⟨middle, hmiddle, hparts, -, hfull⟩ := exists_pieces_of_parse? hd
    rcases hpieces with hlength | hempty
    · have hpositive := List.length_pos_iff.mpr hmiddle
      simp only [hparts, List.length_cons, List.length_append, List.length_nil] at hlength
      omega
    · exact hfull [] hempty rfl

theorem parse_eq_ok_iff {text : String} {d : DeploymentName} :
    parse text = .ok d ↔ parse? text = some d := by
  unfold parse
  cases parse? text <;> simp

theorem parse_eq_error_iff {text : String} {failure : RecordFailure} :
    parse text = .error failure ↔ failure = .deploymentName text ∧
      ((pieces text.toList).length < 4 ∨ [] ∈ pieces text.toList) := by
  rw [← parse?_eq_none_iff]
  unfold parse
  cases parse? text <;> simp [eq_comm]

theorem toList_render (d : DeploymentName) :
    d.render.toList =
      d.project.toList ++ '-' :: '-' :: (d.branch.toList ++ '-' :: '-' ::
        (d.flow.toList ++ '-' :: '-' :: d.environment.toList)) := by
  simp [render, separator_toList]

theorem render_of_parse?
    {text : String} {d : DeploymentName} (htext : parse? text = some d) : d.render = text := by
  obtain ⟨middle, hmiddle, hpieces, hflow, -⟩ := exists_pieces_of_parse? htext
  apply String.toList_injective
  rw [toList_render, hflow, ← intercalate_concat hmiddle, ← intercalate_pieces text.toList,
    hpieces, List.intercalate_cons_cons, List.intercalate_cons_of_ne_nil (by simp)]
  simp

/-- A name whose parts can be told apart in what it is rendered to. -/
structure IsSeparable (d : DeploymentName) : Prop where
  parts_ne_empty : ∀ part ∈ [d.project, d.branch, d.flow, d.environment], part ≠ ""
  no_separator : ∀ part ∈ [d.project, d.branch, d.environment], ¬ ['-', '-'] <:+: part.toList
  no_last_hyphen : ∀ part ∈ [d.project, d.branch, d.flow], part.toList.getLast? ≠ some '-'
  flow_pieces_ne_nil : ∀ piece ∈ pieces d.flow.toList, piece ≠ []

theorem IsSeparable.parse?_render {d : DeploymentName} (hd : d.IsSeparable) :
    parse? d.render = some d := by
  have hproject := pieces_of_no_separator (hd.no_separator d.project (by simp))
  have hbranch := pieces_of_no_separator (hd.no_separator d.branch (by simp))
  have henvironment := pieces_of_no_separator (hd.no_separator d.environment (by simp))
  have hpieces : pieces d.render.toList =
      d.project.toList :: d.branch.toList ::
        (pieces d.flow.toList ++ [d.environment.toList]) := by
    rw [toList_render, pieces_append_separator (hd.no_last_hyphen d.project (by simp)),
      pieces_append_separator (hd.no_last_hyphen d.branch (by simp)),
      pieces_append_separator (hd.no_last_hyphen d.flow (by simp)), hproject, hbranch,
      henvironment]
    rfl
  have hfull : ∀ piece ∈ pieces d.render.toList, piece ≠ [] := by
    have hparts := hd.parts_ne_empty
    have hflow := hd.flow_pieces_ne_nil
    simp only [hpieces, List.mem_cons, List.mem_append, List.not_mem_nil, or_false]
    rintro piece (rfl | rfl | hpiece | rfl)
    · simpa using hparts d.project (by simp)
    · simpa using hparts d.branch (by simp)
    · exact hflow piece hpiece
    · simpa using hparts d.environment (by simp)
  rw [parse?_of_pieces hpieces (pieces_ne_nil _) hfull, intercalate_pieces]
  simp

theorem isSeparable_of_parse?_render
    {d : DeploymentName} (hd : parse? d.render = some d) : d.IsSeparable := by
  obtain ⟨middle, hmiddle, hpieces, hflow, hfull⟩ := exists_pieces_of_parse? hd
  have hwhole (p : List Char) (hp : p ∈ pieces d.render.toList) : ¬ ['-', '-'] <:+: p :=
    no_separator_of_mem_pieces hp
  have hedges (p : List Char) (hp : p ∈ (pieces d.render.toList).dropLast) :
      p.getLast? ≠ some '-' :=
    getLast?_ne_of_mem_dropLast_pieces hp
  have hdrop : (pieces d.render.toList).dropLast =
      d.project.toList :: d.branch.toList :: middle := by
    rw [hpieces, ← List.cons_append, ← List.cons_append, List.dropLast_concat]
  rw [hdrop] at hedges
  rw [hpieces] at hwhole hfull
  have hflowPieces : pieces d.flow.toList = middle := by
    rw [hflow]
    refine pieces_intercalate hmiddle (fun p hp => hwhole p (by simp [hp])) fun p hp => ?_
    exact hedges p (by simp [List.dropLast_subset middle hp])
  obtain ⟨init, last, hlast⟩ : ∃ init last, middle = init ++ [last] :=
    ⟨_, _, (List.dropLast_append_getLast hmiddle).symm⟩
  have hlastNe : last ≠ [] := hfull last (by simp [hlast])
  have hflowLast : d.flow.toList.getLast? = last.getLast? := by
    rw [hflow, hlast, getLast?_intercalate_concat init hlastNe]
  have hflowNe : d.flow.toList ≠ [] := by
    intro hnil
    rw [hnil] at hflowPieces
    exact hfull [] (by simp [← hflowPieces, pieces]) rfl
  constructor
  · have hne (part : String) (hpart : part.toList ≠ []) : part ≠ "" := by
      simpa using hpart
    simp only [List.forall_mem_cons]
    exact ⟨hne _ (hfull _ (by simp)), hne _ (hfull _ (by simp)), hne _ hflowNe,
      hne _ (hfull _ (by simp)), by simp⟩
  · simp only [List.forall_mem_cons]
    exact ⟨hwhole _ (by simp), hwhole _ (by simp), hwhole _ (by simp), by simp⟩
  · simp only [List.forall_mem_cons]
    exact ⟨hedges _ (by simp), hedges _ (by simp),
      hflowLast ▸ hedges last (by simp [hlast]), by simp⟩
  · rw [hflowPieces]
    exact fun piece hpiece => hfull piece (by simp [hpiece])

/--
A name that a text is parsed to is rendered to that text.  What a name is rendered to is
parsed to the name exactly if no part is empty, only the flow holds the separator, no part
before a separator ends in a hyphen, and no piece of the flow is empty.
-/
theorem parse?_render_eq_some_iff :
    (∀ (text : String) (d : DeploymentName), parse? text = some d → d.render = text) ∧
      ∀ d : DeploymentName, parse? d.render = some d ↔ d.IsSeparable :=
  ⟨fun _ _ htext => render_of_parse? htext,
    fun _ => ⟨isSeparable_of_parse?_render, IsSeparable.parse?_render⟩⟩

/-- Three hyphens in the flow are a separator and the start of a piece. -/
theorem parse?_render_eq_some_iff_threeHyphens :
    parse? "acme-eu--main--daily---load--dev" = some ⟨"acme-eu", "main", "daily---load", "dev"⟩ ∧
      render ⟨"acme-eu", "main", "daily---load", "dev"⟩ = "acme-eu--main--daily---load--dev" ∧
      IsSeparable ⟨"acme-eu", "main", "daily---load", "dev"⟩ := by
  have hparse : parse? "acme-eu--main--daily---load--dev" =
      some ⟨"acme-eu", "main", "daily---load", "dev"⟩ := by rfl
  have hrender := parse?_render_eq_some_iff.1 _ _ hparse
  exact ⟨hparse, hrender, (parse?_render_eq_some_iff.2 _).mp (hrender ▸ hparse)⟩

/-- A hyphen at the end of a flow becomes part of what is behind it. -/
example :
    parse? (render ⟨"acme", "main", "load-", "dev"⟩) =
      some ⟨"acme", "main", "load", "-dev"⟩ := by
  rfl

end FlowSurvey.DeploymentName
