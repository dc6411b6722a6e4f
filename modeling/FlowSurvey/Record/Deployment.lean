import FlowSurvey.Record.DeploymentName
import FlowSurvey.Record.Flow

/-!
# Deployment records

A deployment record is made from the name and the tags that a platform reports.
What the name says comes first; a tag fills in only where the name is not of the
usual form.
-/

namespace FlowSurvey

structure Deployment where
  name : String := ""
  project : String := ""
  branch : String := ""
  /-- The canonical name of the flow that is deployed. -/
  flowName : String := ""
  environment : String := ""
  commitHash : String := ""
  packageVersion : String := ""
  tags : List String := []
  id : String := ""
  createdAt : String := ""
  updatedAt : String := ""
  flowId : String := ""
  url : String := ""
  attributes : List (String × Json) := []

/-- What a platform knows about a deployment apart from its name and tags. -/
structure RemoteMetadata where
  id : String := ""
  createdAt : String := ""
  updatedAt : String := ""
  flowId : String := ""
  url : String := ""

/-- The key and the value of a tag, which its first equals sign separates. -/
def splitTag? (tag : String) : Option (String × String) :=
  let cs := tag.toList
  match cs.dropWhile (· ≠ '=') with
  | _ :: value => some (String.ofList (cs.takeWhile (· ≠ '=')), String.ofList value)
  | [] => none

/-- The value of the first tag with a key. -/
def tagValue? (tags : List String) (key : String) : Option String :=
  (tags.filterMap splitTag?).lookup key

namespace Deployment

def ofTags (name : String) (tags : List String) (remote : RemoteMetadata) : Deployment :=
  let tag (key : String) := (tagValue? tags key).getD ""
  let parts : DeploymentName :=
    (DeploymentName.parse? name).getD ⟨tag "PROJECT", tag "BRANCH", name, tag "ENV"⟩
  { name
    project := parts.project
    branch := parts.branch
    flowName := canonicalName parts.flow
    environment := parts.environment
    commitHash := tag "COMMIT_HASH"
    packageVersion := tag "PACKAGE_VERSION"
    tags
    id := remote.id
    createdAt := remote.createdAt
    updatedAt := remote.updatedAt
    flowId := remote.flowId
    url := remote.url }

def toJson (d : Deployment) : Json :=
  .obj
    [("branch", .str d.branch),
     ("child_attributes", .obj d.attributes),
     ("commit_hash", .str d.commitHash),
     ("created_at", .str d.createdAt),
     ("env", .str d.environment),
     ("flow_id", .str d.flowId),
     ("flow_name", .str d.flowName),
     ("id", .str d.id),
     ("name", .str d.name),
     ("package_version", .str d.packageVersion),
     ("project_name", .str d.project),
     ("tags", .arr (d.tags.map .str)),
     ("updated_at", .str d.updatedAt),
     ("url", .str d.url)]

def ofFields (fields : List (String × Json)) : Except Mismatch Deployment := do
  let branch ← Decode.field? fields "branch" Decode.string
  let attributes ← Decode.field? fields "child_attributes" Decode.fields
  let commitHash ← Decode.field? fields "commit_hash" Decode.string
  let createdAt ← Decode.field? fields "created_at" Decode.string
  let environment ← Decode.field? fields "env" Decode.string
  let flowId ← Decode.field? fields "flow_id" Decode.string
  let flowName ← Decode.field? fields "flow_name" Decode.string
  let id ← Decode.field? fields "id" Decode.string
  let name ← Decode.field? fields "name" Decode.string
  let packageVersion ← Decode.field? fields "package_version" Decode.string
  let project ← Decode.field? fields "project_name" Decode.string
  let tags ← Decode.field? fields "tags" (Decode.list Decode.string)
  let updatedAt ← Decode.field? fields "updated_at" Decode.string
  let url ← Decode.field? fields "url" Decode.string
  return {
    name := ← Decode.required "name" name
    project := ← Decode.required "project_name" project
    branch := ← Decode.required "branch" branch
    flowName := ← Decode.required "flow_name" flowName
    environment := ← Decode.required "env" environment
    commitHash := ← Decode.required "commit_hash" commitHash
    packageVersion := ← Decode.required "package_version" packageVersion
    tags := ← Decode.required "tags" tags
    id := ← Decode.required "id" id
    createdAt := ← Decode.required "created_at" createdAt
    updatedAt := ← Decode.required "updated_at" updatedAt
    flowId := ← Decode.required "flow_id" flowId
    url := ← Decode.required "url" url
    attributes := attributes.getD [] }

end Deployment

end FlowSurvey
