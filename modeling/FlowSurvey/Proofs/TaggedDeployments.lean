import FlowSurvey.Proofs.RecordDocuments
import Mathlib.Data.List.Pairwise

/-!
# What tags say about a deployment

A tag has a key if it has an equals sign: the key stands in front of the first one, and all that
is behind it is the value.  A field that is filled from the tags takes the value of the first tag
with its key, and other tags do not count, whether they have no sign, another key or one that
only starts in the same way.  So where no two tags have one key, their order makes no difference.
-/

namespace FlowSurvey

/-! ## Keys and values -/

/-- What stands in front of the first equals sign of a tag, and what stands behind it. -/
structure IsTag (key value tag : String) : Prop where
  no_sign : '=' ∉ key.toList
  tag_eq : tag = key ++ "=" ++ value

section Split

variable {key value tag : String}

theorem takeWhile_append_sign {cs : List Char} (hcs : '=' ∉ cs) (rest : List Char) :
    (cs ++ '=' :: rest).takeWhile (· ≠ '=') = cs ∧
      (cs ++ '=' :: rest).dropWhile (· ≠ '=') = '=' :: rest := by
  have hall : ∀ c ∈ cs, decide (c ≠ '=') = true := by
    intro c hc
    exact decide_eq_true fun hsign => hcs (hsign ▸ hc)
  constructor
  · rw [List.takeWhile_append_of_pos hall, List.takeWhile_cons_of_neg (by simp), List.append_nil]
  · rw [List.dropWhile_append_of_pos hall, List.dropWhile_cons_of_neg (by simp)]

theorem IsTag.splitTag?_eq (htag : IsTag key value tag) : splitTag? tag = some (key, value) := by
  have htext : tag.toList = key.toList ++ '=' :: value.toList := by
    simp [htag.tag_eq]
  obtain ⟨hfront, hbehind⟩ := takeWhile_append_sign htag.no_sign value.toList
  simp only [splitTag?, htext, hfront, hbehind, String.ofList_toList]

/-- A tag with an equals sign is cut at the first one. -/
theorem isTag_of_splitTag? (hsplit : splitTag? tag = some (key, value)) : IsTag key value tag := by
  by_cases hsign : '=' ∈ tag.toList
  · obtain ⟨front, behind, htext, hfront⟩ := List.eq_append_cons_of_mem hsign
    have htag : IsTag (String.ofList front) (String.ofList behind) tag := by
      refine ⟨by simpa using hfront, String.toList_injective ?_⟩
      simp [htext]
    have hparts := Option.some.inj (htag.splitTag?_eq.symm.trans hsplit)
    obtain ⟨rfl, rfl⟩ := Prod.mk.inj hparts
    exact htag
  · have hnone : tag.toList.dropWhile (· ≠ '=') = [] := by
      rw [List.dropWhile_eq_nil_iff]
      intro c hc
      exact decide_eq_true fun heq => hsign (heq ▸ hc)
    simp only [splitTag?, hnone] at hsplit
    cases hsplit

theorem splitTag?_eq_some_iff : splitTag? tag = some (key, value) ↔ IsTag key value tag :=
  ⟨isTag_of_splitTag?, IsTag.splitTag?_eq⟩

end Split

/-! ## The value of a key -/

/-- What the tags say under a key: the value of the first tag with the key, or nothing. -/
inductive Says (tags : List String) (key : String) : String → Prop
  | first {before after : List String} {tag value : String}
      (htags : tags = before ++ tag :: after) (htag : IsTag key value tag)
      (hbefore : ∀ other ∈ before, ∀ text, ¬IsTag key text other) : Says tags key value
  | nothing (hnone : ∀ tag ∈ tags, ∀ text, ¬IsTag key text tag) : Says tags key ""

section Values

variable {key tag : String}

theorem tagValue?_cons_of_isTag {value : String} (htag : IsTag key value tag)
    (rest : List String) : tagValue? (tag :: rest) key = some value := by
  rw [tagValue?, List.filterMap_cons_some htag.splitTag?_eq, List.lookup_cons_self]

theorem tagValue?_cons_of_not_isTag (htag : ∀ value, ¬IsTag key value tag) (rest : List String) :
    tagValue? (tag :: rest) key = tagValue? rest key := by
  cases hsplit : splitTag? tag with
  | none => rw [tagValue?, List.filterMap_cons_none hsplit, tagValue?]
  | some parts =>
      obtain ⟨other, value⟩ := parts
      have hne : key ≠ other := by
        rintro rfl
        exact htag value (isTag_of_splitTag? hsplit)
      rw [tagValue?, List.filterMap_cons_some hsplit, List.lookup_cons,
        beq_eq_false_iff_ne.mpr hne, tagValue?]

/-- A tag without the key does not count, wherever it stands. -/
theorem tagValue?_append_cons_of_not_isTag (htag : ∀ value, ¬IsTag key value tag)
    (before after : List String) :
    tagValue? (before ++ tag :: after) key = tagValue? (before ++ after) key := by
  induction before with
  | nil => exact tagValue?_cons_of_not_isTag htag after
  | cons other before ih =>
      by_cases hother : ∃ value, IsTag key value other
      · obtain ⟨value, hother⟩ := hother
        rw [List.cons_append, List.cons_append, tagValue?_cons_of_isTag hother,
          tagValue?_cons_of_isTag hother]
      · rw [not_exists] at hother
        rw [List.cons_append, List.cons_append, tagValue?_cons_of_not_isTag hother,
          tagValue?_cons_of_not_isTag hother, ih]

theorem says_tagValue? (tags : List String) (key : String) :
    Says tags key ((tagValue? tags key).getD "") := by
  induction tags with
  | nil => exact .nothing (by simp)
  | cons tag rest ih =>
      by_cases htag : ∃ value, IsTag key value tag
      · obtain ⟨value, htag⟩ := htag
        rw [tagValue?_cons_of_isTag htag, Option.getD_some]
        have htags : tag :: rest = [] ++ tag :: rest := by rfl
        exact .first htags htag (by simp)
      · rw [not_exists] at htag
        rw [tagValue?_cons_of_not_isTag htag]
        generalize (tagValue? rest key).getD "" = text at ih
        cases ih with
        | @first before after other value hrest hother hbefore =>
            have htags : tag :: rest = (tag :: before) ++ other :: after := by
              rw [hrest, List.cons_append]
            exact .first htags hother (List.forall_mem_cons.mpr ⟨htag, hbefore⟩)
        | nothing hnone => exact .nothing (List.forall_mem_cons.mpr ⟨htag, hnone⟩)

theorem exists_mem_of_tagValue? {tags : List String} {value : String}
    (hvalue : tagValue? tags key = some value) : ∃ tag ∈ tags, IsTag key value tag := by
  obtain ⟨before, after, hparts, -⟩ := List.lookup_eq_some_iff.mp hvalue
  have hmem : (key, value) ∈ tags.filterMap splitTag? := by
    rw [hparts]
    simp
  obtain ⟨tag, htag, hsplit⟩ := List.mem_filterMap.mp hmem
  exact ⟨tag, htag, isTag_of_splitTag? hsplit⟩

end Values

/-- No two of the tags have the same key; tags without an equals sign have none. -/
def DistinctKeys (tags : List String) : Prop :=
  tags.Pairwise fun first second => ∀ key value text, IsTag key value first → ¬IsTag key text second

theorem distinctKeys_iff {tags : List String} :
    DistinctKeys tags ↔ ((tags.filterMap splitTag?).map Prod.fst).Nodup := by
  rw [DistinctKeys, List.Nodup, List.pairwise_map, List.pairwise_filterMap]
  simp only [splitTag?_eq_some_iff, Prod.forall]
  constructor
  · rintro hkeys
    refine hkeys.imp fun hpair key value hfirst other text hsecond hsame => ?_
    exact hpair key value text hfirst (hsame ▸ hsecond)
  · intro hkeys
    refine hkeys.imp fun hpair key value text hfirst hsecond => ?_
    exact hpair key value hfirst key text hsecond rfl

instance (tags : List String) : Decidable (DistinctKeys tags) :=
  decidable_of_iff _ distinctKeys_iff.symm

theorem DistinctKeys.tagValue?_eq {tags : List String} (htags : DistinctKeys tags)
    {key value tag : String} (hmem : tag ∈ tags) (htag : IsTag key value tag) :
    tagValue? tags key = some value := by
  induction tags with
  | nil => exact absurd hmem List.not_mem_nil
  | cons other rest ih =>
      obtain ⟨hother, hrest⟩ := List.pairwise_cons.mp htags
      rcases List.mem_cons.mp hmem with rfl | hmem
      · exact tagValue?_cons_of_isTag htag rest
      · have hfree : ∀ text, ¬IsTag key text other :=
          fun text hkey => hother tag hmem key text value hkey htag
        rw [tagValue?_cons_of_not_isTag hfree, ih hrest hmem]

theorem DistinctKeys.of_perm {tags others : List String} (htags : DistinctKeys tags)
    (hperm : tags.Perm others) : DistinctKeys others := by
  refine (hperm.pairwise_iff ?_).mp htags
  intro first second hkeys key value text hsecond hfirst
  exact hkeys key text value hfirst hsecond

theorem DistinctKeys.tagValue?_perm {tags others : List String} (htags : DistinctKeys tags)
    (hperm : tags.Perm others) (key : String) : tagValue? others key = tagValue? tags key := by
  apply Option.ext
  intro value
  constructor
  · intro hvalue
    obtain ⟨tag, hmem, htag⟩ := exists_mem_of_tagValue? hvalue
    exact htags.tagValue?_eq (hperm.mem_iff.mpr hmem) htag
  · intro hvalue
    obtain ⟨tag, hmem, htag⟩ := exists_mem_of_tagValue? hvalue
    exact (htags.of_perm hperm).tagValue?_eq (hperm.mem_iff.mp hmem) htag

/-! ## Deployments -/

namespace Deployment

/-- The keys of the tags that a field is filled from. -/
def tagKeys : List String :=
  ["PROJECT", "BRANCH", "ENV", "COMMIT_HASH", "PACKAGE_VERSION"]

/-- A deployment has two fields from its tags, and three more unless its name has them. -/
structure FilledFrom (name : String) (tags : List String) (d : Deployment) : Prop where
  commitHash : Says tags "COMMIT_HASH" d.commitHash
  packageVersion : Says tags "PACKAGE_VERSION" d.packageVersion
  of_rejected : DeploymentName.parse? name = none →
    Says tags "PROJECT" d.project ∧ Says tags "BRANCH" d.branch ∧ Says tags "ENV" d.environment
  of_parsed : ∀ parts, DeploymentName.parse? name = some parts →
    d.project = parts.project ∧ d.branch = parts.branch ∧ d.environment = parts.environment

variable (name : String) (remote : RemoteMetadata)

theorem filledFrom_ofTags (tags : List String) :
    (ofTags name tags remote).FilledFrom name tags := by
  refine ⟨says_tagValue? tags _, says_tagValue? tags _, ?_, ?_⟩
  · intro hname
    simp only [ofTags, hname, Option.getD_none]
    exact ⟨says_tagValue? tags _, says_tagValue? tags _, says_tagValue? tags _⟩
  · intro parts hname
    simp only [ofTags, hname, Option.getD_some, and_self]

/-- All that counts of the tags are the values of the keys. -/
theorem ofTags_congr {tags others : List String}
    (hvalues : ∀ key ∈ tagKeys, tagValue? others key = tagValue? tags key) :
    ofTags name others remote = { ofTags name tags remote with tags := others } := by
  simp only [tagKeys, List.forall_mem_cons] at hvalues
  obtain ⟨hproject, hbranch, henvironment, hcommit, hversion, -⟩ := hvalues
  simp only [ofTags, hproject, hbranch, henvironment, hcommit, hversion]

/--
A deployment is filled from its name and its tags as its fields say.  Tags without the keys that
are looked for make no difference, nor does the order of tags with different keys; and a record is
read back as it was written.
-/
theorem ofTags_reads_first_tags (tags : List String) :
    (ofTags name tags remote).FilledFrom name tags ∧
      (∀ before tag after, tags = before ++ tag :: after →
        (∀ key ∈ tagKeys, ∀ value, ¬IsTag key value tag) →
        ofTags name tags remote = { ofTags name (before ++ after) remote with tags }) ∧
      (∀ others, tags.Perm others → DistinctKeys tags →
        ofTags name others remote = { ofTags name tags remote with tags := others }) ∧
      ∀ d : Deployment, Deployment.ofJson d.toJson = .ok d := by
  refine ⟨filledFrom_ofTags name remote tags, ?_, ?_, ofJson_toJson⟩
  · rintro before tag after rfl hfree
    refine ofTags_congr name remote fun key hkey => ?_
    exact tagValue?_append_cons_of_not_isTag (hfree key hkey) before after
  · intro others hperm hkeys
    exact ofTags_congr name remote fun key _ => hkeys.tagValue?_perm hperm key

/-- A key behind one that starts with it and behind a tag without a sign, and the tags turned round. -/
theorem ofTags_reads_first_tags_nightly :
    let tags := ["PROJECT", "PROJECTS=x", "ENV=prod", "PROJECT=a=b"]
    DeploymentName.parse? "nightly-report" = none ∧ DistinctKeys tags ∧
      (ofTags "nightly-report" tags {}).FilledFrom "nightly-report" tags ∧
      (ofTags "nightly-report" tags {}).project = "a=b" ∧
      ofTags "nightly-report" tags.reverse {} =
        { ofTags "nightly-report" tags {} with tags := tags.reverse } := by
  intro tags
  have hname : DeploymentName.parse? "nightly-report" = none := by rfl
  have hkeys : DistinctKeys tags := by decide
  obtain ⟨hfilled, -, hperm, -⟩ := ofTags_reads_first_tags "nightly-report" {} tags
  exact ⟨hname, hkeys, hfilled, rfl, hperm _ (List.reverse_perm tags).symm hkeys⟩

end Deployment

end FlowSurvey
