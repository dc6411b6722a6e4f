import FlowSurvey.Proofs.WalkSizes

/-!
# Steps of a walk

At an entry a walk either goes on into a directory or is done with one visit at most, which is
about the path of the entry.  Which of the two it is depends on the entry and on the directories
that the walk is in, and not on how the walk goes on.
-/

namespace FlowSurvey

/-- The path that a visit is about. -/
def Visit.path : Visit → String
  | .source path | .tooLarge path _ _ => path
  | .skipped fault => fault.path

theorem Visit.path_eq_of_source? {visit : Visit} {path : String}
    (hsource : visit.source? = some path) : visit.path = path := by
  cases visit with
  | source => exact Option.some.inj hsource
  | tooLarge | skipped => cases hsource

theorem Visit.path_eq_of_file? {visit : Visit} {path : String}
    (hfile : visit.file? = some path) : visit.path = path := by
  cases visit with
  | source | tooLarge => exact Option.some.inj hfile
  | skipped => cases hfile

theorem Visit.path_eq_of_diagnostic? {visit : Visit} {diagnostic : Diagnostic}
    (hdiagnostic : visit.diagnostic? = some diagnostic) : visit.path = diagnostic.path := by
  cases visit with
  | source => cases hdiagnostic
  | tooLarge | skipped =>
      obtain rfl := Option.some.inj hdiagnostic
      rfl

namespace Walk

open FileSystem

/-! ## Going on into a directory -/

/-- The walk goes on from an entry into a directory: a real one, or a new one behind a link. -/
inductive Enters (fs : FileSystem) (config : Config) (here : Ancestor) (ancestors : List Ancestor)
    (name : String) : Entry → Ancestor → List (String × Entry) → Prop
  | directory {inner : List (String × Entry)} (hexcluded : config.excludes name = false) :
      Enters fs config here ancestors name (.directory inner)
        ⟨Path.join here.path name, here.position ++ [name]⟩ inner
  | link {target : String} {trail : Trail} {inner : List (String × Entry)}
      (hfollow : config.followLinks = true) (hexcluded : config.excludes name = false)
      (hresolve : fs.resolve (Path.join here.path name) = .ok trail)
      (hat : entryAt fs.root trail = .directory inner)
      (hnew : ∀ a ∈ here :: ancestors, a.position ≠ position trail) :
      Enters fs config here ancestors name (.link target)
        ⟨Path.join here.path name, position trail⟩ inner

section Enters

variable {fs : FileSystem} {config : Config} {here : Ancestor} {ancestors : List Ancestor}
  {name : String} {entry : Entry} {below : Ancestor} {inner : List (String × Entry)}

theorem visitEntry_directory (descend : List Ancestor → List (String × Entry) → List Visit) :
    visitEntry fs config descend (here :: ancestors) name (.directory inner) =
      visitDirectory config descend (here :: ancestors) name
        ⟨Path.join here.path name, here.position ++ [name]⟩ inner := rfl

theorem visitEntry_link (descend : List Ancestor → List (String × Entry) → List Visit)
    (target : String) :
    visitEntry fs config descend (here :: ancestors) name (.link target) =
      if config.followLinks then
        visitTarget fs config descend (here :: ancestors) name (Path.join here.path name)
      else if fs.isFile (Path.join here.path name) then
        visitFile config (Path.join here.path name) target.utf8ByteSize
      else [] := rfl

theorem Enters.path_eq (henters : Enters fs config here ancestors name entry below inner) :
    below.path = Path.join here.path name := by
  cases henters <;> rfl

/-- What is visited at such an entry is what is visited in the directory. -/
theorem Enters.visitEntry_eq (henters : Enters fs config here ancestors name entry below inner)
    (descend : List Ancestor → List (String × Entry) → List Visit) :
    visitEntry fs config descend (here :: ancestors) name entry =
      descend (below :: here :: ancestors) inner := by
  cases henters with
  | directory hexcluded => simp [visitEntry_directory, visitDirectory, hexcluded]
  | @link _ trail _ hfollow hexcluded hresolve hat hnew =>
      have hfree : (here :: ancestors).find? (fun a => a.position = position trail) = none := by
        rw [List.find?_eq_none]
        exact fun a ha => by simpa using hnew a ha
      simp only [visitEntry_link, hfollow, if_true, visitTarget, hresolve, hat, hfree,
        visitDirectory, hexcluded, Bool.false_eq_true, if_false]

theorem visitTarget_of_excluded {path : String}
    (hexcluded : ∀ trail inner, fs.resolve path = .ok trail →
      entryAt fs.root trail = .directory inner → (∀ a ∈ ancestors, a.position ≠ position trail) →
        config.excludes name = true)
    (descend : List Ancestor → List (String × Entry) → List Visit) :
    visitTarget fs config descend ancestors name path =
      visitTarget fs config (fun _ _ => []) ancestors name path := by
  unfold visitTarget
  split
  · rfl
  next trail hresolve =>
    split
    · rfl
    next inner hat =>
      dsimp only
      split
      · rfl
      next hfree =>
        have hnew : ∀ a ∈ ancestors, a.position ≠ position trail := by
          rw [List.find?_eq_none] at hfree
          exact fun a ha => by simpa using hfree a ha
        simp [visitDirectory, hexcluded trail inner hresolve hat hnew]
    · rfl

/-- All other entries are visited for themselves, with what is in no directory. -/
theorem visitEntry_of_not_enters
    (hnot : ∀ below inner, ¬Enters fs config here ancestors name entry below inner)
    (descend : List Ancestor → List (String × Entry) → List Visit) :
    visitEntry fs config descend (here :: ancestors) name entry =
      visitEntry fs config (fun _ _ => []) (here :: ancestors) name entry := by
  cases entry with
  | file content => rfl
  | directory inner =>
      have hexcluded : config.excludes name = true := by
        by_contra hentered
        exact hnot _ _ (.directory (Bool.not_eq_true _ ▸ hentered))
      simp [visitEntry_directory, visitDirectory, hexcluded]
  | link target =>
      rw [visitEntry_link, visitEntry_link]
      split
      next hfollow =>
        refine visitTarget_of_excluded (fun trail inner hresolve hat hnew => ?_) descend
        by_contra hentered
        exact hnot _ _ (.link hfollow (Bool.not_eq_true _ ▸ hentered) hresolve hat hnew)
      · rfl

/-- Two ways to go on that agree on the directory that is entered visit the same at an entry. -/
theorem visitEntry_congr {first second : List Ancestor → List (String × Entry) → List Visit}
    (hsame : ∀ below inner, Enters fs config here ancestors name entry below inner →
      first (below :: here :: ancestors) inner = second (below :: here :: ancestors) inner) :
    visitEntry fs config first (here :: ancestors) name entry =
      visitEntry fs config second (here :: ancestors) name entry := by
  by_cases hentered : ∃ below inner, Enters fs config here ancestors name entry below inner
  · obtain ⟨below, inner, henters⟩ := hentered
    rw [henters.visitEntry_eq, henters.visitEntry_eq, hsame below inner henters]
  · simp only [not_exists] at hentered
    rw [visitEntry_of_not_enters hentered first, visitEntry_of_not_enters hentered second]

theorem Enters.wellNamed (henters : Enters fs config here ancestors name entry below inner)
    (hroot : WellNamed fs.root) (hentry : WellNamed entry) :
    (inner.map Prod.fst).Nodup ∧ WellNamedAmong inner := by
  cases henters with
  | directory => rwa [WellNamed] at hentry
  | link _ _ hresolve hat =>
      exact wellNamed_of_entry_eq_directory hroot (entry_eq_ok_iff.mpr ⟨_, hresolve, hat⟩)

end Enters

/-! ## Staying at an entry -/

section OnlyAt

variable {fs : FileSystem} {config : Config} {here : Ancestor} {ancestors : List Ancestor}
  {name : String} {entry : Entry}

/-- No more than one visit, which is about a path. -/
def OnlyAt (path : String) (visits : List Visit) : Prop :=
  visits = [] ∨ ∃ visit, visits = [visit] ∧ visit.path = path

theorem onlyAt_visitFile (path : String) (size : Nat) :
    OnlyAt path (visitFile config path size) := by
  unfold visitFile
  split
  · split
    · exact .inr ⟨_, rfl, rfl⟩
    · exact .inr ⟨_, rfl, rfl⟩
  · exact .inl rfl

theorem visitDirectory_nil (below : Ancestor) (inner : List (String × Entry)) :
    visitDirectory config (fun _ _ => []) ancestors name below inner = [] := by
  unfold visitDirectory
  split <;> rfl

theorem onlyAt_visitTarget (path : String) :
    OnlyAt path (visitTarget fs config (fun _ _ => []) ancestors name path) := by
  unfold visitTarget
  split
  · exact .inr ⟨_, rfl, rfl⟩
  · split
    · exact onlyAt_visitFile _ _
    · dsimp only
      split
      · exact .inr ⟨_, rfl, rfl⟩
      · exact .inl (visitDirectory_nil _ _)
    · exact .inl rfl

theorem onlyAt_visitEntry :
    OnlyAt (Path.join here.path name)
      (visitEntry fs config (fun _ _ => []) (here :: ancestors) name entry) := by
  cases entry with
  | file content => exact onlyAt_visitFile _ _
  | directory inner =>
      rw [visitEntry_directory, visitDirectory_nil]
      exact .inl rfl
  | link target =>
      rw [visitEntry_link]
      split
      · exact onlyAt_visitTarget _
      · split
        · exact onlyAt_visitFile _ _
        · exact .inl rfl

/-- At an entry there are the visits of the directory that is entered, or one at its path. -/
theorem visitEntry_cases (descend : List Ancestor → List (String × Entry) → List Visit) :
    (∃ below inner, Enters fs config here ancestors name entry below inner ∧
      visitEntry fs config descend (here :: ancestors) name entry =
        descend (below :: here :: ancestors) inner) ∨
      OnlyAt (Path.join here.path name)
        (visitEntry fs config descend (here :: ancestors) name entry) := by
  by_cases hentered : ∃ below inner, Enters fs config here ancestors name entry below inner
  · obtain ⟨below, inner, henters⟩ := hentered
    exact .inl ⟨below, inner, henters, henters.visitEntry_eq descend⟩
  · simp only [not_exists] at hentered
    rw [visitEntry_of_not_enters hentered descend]
    exact .inr onlyAt_visitEntry

end OnlyAt

end Walk
end FlowSurvey
