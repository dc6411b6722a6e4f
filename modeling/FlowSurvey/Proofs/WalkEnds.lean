import FlowSurvey.Proofs.EligibleFiles
import Mathlib.Data.Finset.Card
import Mathlib.Data.Finset.SDiff

/-!
# Walks end

Behind a link the same directories may come again, so the paths that a walk could go down are not
bounded by the tree.  But a link is entered only if it leads to a directory that the walk is not
in, and between two links the walk goes down a tree.  So there is a walk without fuel, and the
walk with fuel is this one.
-/

namespace FlowSurvey

namespace FileSystem

/-! ## The directories of a file system -/

mutual

/-- The names that lead from an entry to the directories in it, itself included. -/
def directoryPositions : Entry → List (List String)
  | .directory entries => [] :: directoryPositionsAmong entries
  | _ => []

def directoryPositionsAmong : List (String × Entry) → List (List String)
  | [] => []
  | (name, entry) :: rest =>
      (directoryPositions entry).map (name :: ·) ++ directoryPositionsAmong rest

end

mutual

theorem length_directoryPositions :
    (entry : Entry) → (directoryPositions entry).length = directories entry
  | .directory entries => by
      rw [directoryPositions, directories, List.length_cons,
        length_directoryPositionsAmong entries, Nat.add_comm]
  | .file _ | .link _ => by
      simp [directoryPositions, directories]

theorem length_directoryPositionsAmong :
    (entries : List (String × Entry)) →
      (directoryPositionsAmong entries).length = directoriesAmong entries
  | [] => rfl
  | (_, entry) :: rest => by
      rw [directoryPositionsAmong, directoriesAmong, List.length_append, List.length_map,
        length_directoryPositions entry, length_directoryPositionsAmong rest]

end

theorem mem_directoryPositionsAmong_of_mem {entries : List (String × Entry)} {name : String}
    {entry : Entry} (hmem : (name, entry) ∈ entries) {names : List String}
    (hnames : names ∈ directoryPositions entry) :
    name :: names ∈ directoryPositionsAmong entries := by
  induction entries with
  | nil => exact absurd hmem List.not_mem_nil
  | cons first rest ih =>
      rw [directoryPositionsAmong, List.mem_append]
      rcases List.mem_cons.mp hmem with rfl | hrest
      · exact .inl (List.mem_map_of_mem hnames)
      · exact .inr (ih hrest)

theorem LeadsTo.mem_directoryPositionsAmong {entries inner : List (String × Entry)}
    {names : List String} {entry : Entry} (hleads : LeadsTo entries names entry)
    (hentry : entry = .directory inner) : names ∈ directoryPositionsAmong entries := by
  induction hleads with
  | here hmem =>
      refine mem_directoryPositionsAmong_of_mem hmem ?_
      rw [hentry, directoryPositions]
      exact List.mem_cons_self
  | through hmem _ ih =>
      refine mem_directoryPositionsAmong_of_mem hmem ?_
      rw [directoryPositions]
      exact List.mem_cons_of_mem _ (ih hentry)

theorem LeadsTo.concat {entries inner : List (String × Entry)} {names : List String}
    {directory entry : Entry} {name : String} (hleads : LeadsTo entries names directory)
    (hdirectory : directory = .directory inner) (hmem : (name, entry) ∈ inner) :
    LeadsTo entries (names ++ [name]) entry := by
  induction hleads with
  | here hhere => exact .through (hdirectory ▸ hhere) (.here hmem)
  | through hfirst _ ih => exact .through hfirst (ih hdirectory)

theorem IsTrail.leadsTo {root : Entry} {trail : Trail} (htrail : IsTrail root trail)
    {top : List (String × Entry)} (hroot : root = .directory top) (hne : trail ≠ []) :
    LeadsTo top (position trail) (entryAt root trail) := by
  induction htrail with
  | nil => exact absurd rfl hne
  | @cons trail entries name entry _ hdirectory _ hfound _ ih =>
      have hmem := mem_of_lookup_eq_some hfound
      rw [position_cons]
      by_cases hfirst : trail = []
      · obtain rfl := hfirst
        obtain rfl := Entry.directory.inj (hroot.symm.trans hdirectory)
        exact .here hmem
      · exact (ih hfirst).concat hdirectory hmem

/-- A trail to a directory has one of the positions that there are for directories. -/
theorem IsTrail.position_mem {root : Entry} {trail : Trail} (htrail : IsTrail root trail)
    {entries : List (String × Entry)} (hdirectory : entryAt root trail = .directory entries) :
    position trail ∈ directoryPositions root := by
  obtain ⟨top, hroot⟩ := htrail.exists_root_directory hdirectory
  rw [hroot, directoryPositions, List.mem_cons]
  by_cases hfirst : trail = []
  · exact .inl (by rw [hfirst]; rfl)
  · exact .inr ((htrail.leadsTo hroot hfirst).mem_directoryPositionsAmong hdirectory)

end FileSystem

namespace Walk

open FileSystem

/-! ## Walks without fuel -/

/-- The visits of a walk below a directory, which goes on into every directory that is entered. -/
inductive Walked (fs : FileSystem) (config : Config) :
    Ancestor → List Ancestor → List (String × Entry) → List Visit → Prop
  | tooDeep {here : Ancestor} {ancestors : List Ancestor} {entries : List (String × Entry)}
      (hdepth : ¬config.maxDepth.all ((here :: ancestors).length ≤ ·)) :
      Walked fs config here ancestors entries []
  | within {here : Ancestor} {ancestors : List Ancestor} {entries : List (String × Entry)}
      (descend : List Ancestor → List (String × Entry) → List Visit)
      (hdepth : config.maxDepth.all ((here :: ancestors).length ≤ ·))
      (hbelow : ∀ name entry below inner, (name, entry) ∈ entries →
        Enters fs config here ancestors name entry below inner →
          Walked fs config below (here :: ancestors) inner
            (descend (below :: here :: ancestors) inner)) :
      Walked fs config here ancestors entries
        ((inOrder entries).flatMap fun (name, entry) =>
          visitEntry fs config descend (here :: ancestors) name entry)

section Walked

variable {fs : FileSystem} {config : Config} {here : Ancestor} {ancestors : List Ancestor}
  {entries : List (String × Entry)}

/-- There is one walk only. -/
theorem Walked.unique {first second : List Visit}
    (hfirst : Walked fs config here ancestors entries first)
    (hsecond : Walked fs config here ancestors entries second) : first = second := by
  induction hfirst generalizing second with
  | tooDeep hdepth =>
      cases hsecond with
      | tooDeep => rfl
      | within _ hwithin => exact absurd hwithin hdepth
  | within descend hdepth _ ih =>
      cases hsecond with
      | tooDeep hdeep => exact absurd hdepth hdeep
      | within other _ hother =>
          rw [List.flatMap_def, List.flatMap_def]
          refine congrArg List.flatten (List.map_congr_left fun a ha => ?_)
          refine visitEntry_congr fun below inner henters => ?_
          exact ih _ _ _ _ (mem_of_mem_inOrder ha) henters
            (hother _ _ _ _ (mem_of_mem_inOrder ha) henters)

/-- The directories that a walk is not in. -/
def outside (fs : FileSystem) (ancestors : List Ancestor) : Finset (List String) :=
  (directoryPositions fs.root).toFinset \ (ancestors.map Ancestor.position).toFinset

theorem outside_cons (below : Ancestor) (ancestors : List Ancestor) :
    outside fs (below :: ancestors) = (outside fs ancestors).erase below.position := by
  rw [outside, outside, List.map_cons, List.toFinset_cons, Finset.sdiff_insert]

/-- The directory that a walk is in is not outside, so not all are. -/
theorem card_outside_lt (hhere : here.position ∈ directoryPositions fs.root)
    (ancestors : List Ancestor) :
    (outside fs (here :: ancestors)).card < directories fs.root := by
  have hmem : here.position ∈ (directoryPositions fs.root).toFinset := List.mem_toFinset.mpr hhere
  calc (outside fs (here :: ancestors)).card
      ≤ ((directoryPositions fs.root).toFinset.erase here.position).card := by
        rw [outside_cons]
        exact Finset.card_le_card (Finset.erase_subset_erase _ Finset.sdiff_subset)
    _ < (directoryPositions fs.root).toFinset.card := Finset.card_erase_lt_of_mem hmem
    _ ≤ (directoryPositions fs.root).length := List.toFinset_card_le _
    _ = directories fs.root := length_directoryPositions fs.root

/-- How deep a walk can still go: down a tree for each directory outside, and down its own. -/
def depthLeft (fs : FileSystem) (ancestors : List Ancestor) (entries : List (String × Entry)) :
    Nat :=
  (outside fs ancestors).card * directories fs.root + directoriesAmong entries + 1

theorem Enters.depthLeft_lt {name : String} {entry : Entry} {below : Ancestor}
    {inner : List (String × Entry)}
    (henters : Enters fs config here ancestors name entry below inner)
    (hmem : (name, entry) ∈ entries) :
    depthLeft fs (below :: here :: ancestors) inner < depthLeft fs (here :: ancestors) entries := by
  rw [depthLeft, depthLeft, outside_cons]
  cases henters with
  | directory =>
      have hfewer := Nat.mul_le_mul_right (directories fs.root)
        (Finset.card_le_card (Finset.erase_subset (here.position ++ [name])
          (outside fs (here :: ancestors))))
      have hsmaller := directories_le_of_mem hmem
      rw [directories] at hsmaller
      dsimp only
      omega
  | @link _ trail _ _ _ hresolve hat hnew =>
      have htrail := isTrail_resolve hresolve
      have hout : position trail ∈ outside fs (here :: ancestors) := by
        have hfree : position trail ∉ (here :: ancestors).map Ancestor.position := by
          intro hold
          obtain ⟨a, ha, heq⟩ := List.mem_map.mp hold
          exact hnew a ha heq
        rw [outside, Finset.mem_sdiff, List.mem_toFinset, List.mem_toFinset]
        exact ⟨htrail.position_mem hat, hfree⟩
      -- One directory fewer is outside, which leaves room for the tree behind the link.
      have hfewer := Nat.mul_le_mul_right (directories fs.root) (Finset.card_erase_lt_of_mem hout)
      have hsmaller := htrail.directories_le
      rw [hat, directories] at hsmaller
      rw [Nat.succ_mul] at hfewer
      dsimp only
      omega

/-- With fuel to go as deep as it can, a walk is the one without fuel. -/
theorem walked_visitEntries {fuel : Nat}
    (hfuel : depthLeft fs (here :: ancestors) entries ≤ fuel) :
    Walked fs config here ancestors entries
      (visitEntries fs config fuel (here :: ancestors) entries) := by
  induction fuel generalizing here ancestors entries with
  | zero => exact absurd hfuel (Nat.not_succ_le_zero _)
  | succ n ih =>
      rw [visitEntries]
      split
      next hdepth =>
        refine .within _ hdepth fun name entry below inner hmem henters => ?_
        have hless := henters.depthLeft_lt hmem
        exact ih (by omega)
      next hdepth => exact .tooDeep hdepth

theorem depthLeft_le_deepest {trail : Trail} (htrail : IsTrail fs.root trail)
    (hat : entryAt fs.root trail = .directory entries)
    (hhere : here.position = position trail) (ancestors : List Ancestor) :
    depthLeft fs (here :: ancestors) entries ≤ deepest fs := by
  have hposition : here.position ∈ directoryPositions fs.root := hhere ▸ htrail.position_mem hat
  have hfewer := Nat.mul_le_mul_right (directories fs.root) (card_outside_lt hposition ancestors)
  have hsmaller := htrail.directories_le
  rw [Nat.succ_mul] at hfewer
  rw [hat, directories] at hsmaller
  rw [depthLeft, deepest]
  omega

end Walked

section WalkedFrom

variable {fs : FileSystem} {config : Config} {root : String} {visits : List Visit}

/-- The visits of a walk without fuel below a root, which leads to a directory. -/
def WalkedFrom (fs : FileSystem) (config : Config) (root : String) (visits : List Visit) : Prop :=
  ∃ trail entries, fs.resolve root = .ok trail ∧ entryAt fs.root trail = .directory entries ∧
    Walked fs config ⟨root, position trail⟩ [] entries visits

theorem WalkedFrom.unique {other : List Visit} (hvisits : WalkedFrom fs config root visits)
    (hother : WalkedFrom fs config root other) : visits = other := by
  obtain ⟨trail, entries, hresolve, hat, hwalked⟩ := hvisits
  obtain ⟨again, others, hagain, hagainAt, hwalkedAgain⟩ := hother
  obtain rfl := Except.ok.inj (hresolve.symm.trans hagain)
  obtain rfl := Entry.directory.inj (hat.symm.trans hagainAt)
  exact hwalked.unique hwalkedAgain

theorem WalkedFrom.root_ne_empty (hvisits : WalkedFrom fs config root visits) : root ≠ "" := by
  obtain ⟨_, _, hresolve, -⟩ := hvisits
  exact ne_empty_of_resolve hresolve

/-- Every walk ends, as a walk without fuel. -/
theorem walkedFrom_of_visits (hvisits : Walk.visits fs root config = .ok visits) :
    WalkedFrom fs config root visits := by
  obtain ⟨trail, entries, hresolve, hat, rfl⟩ := visits_eq_ok_iff.mp hvisits
  have hdeepest : depthLeft fs [⟨root, position trail⟩] entries ≤ deepest fs :=
    depthLeft_le_deepest (isTrail_resolve hresolve) hat rfl []
  exact ⟨trail, entries, hresolve, hat, walked_visitEntries (Nat.le_succ_of_le hdeepest)⟩

end WalkedFrom

end Walk
end FlowSurvey
