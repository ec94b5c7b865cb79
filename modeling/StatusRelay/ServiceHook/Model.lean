import StatusRelay.Payload.Schema
import StatusRelay.ServiceHook.Time

namespace StatusRelay.ServiceHook

open Payload

def camelChars : List Char → List Char
  | '_' :: c :: rest => c.toUpper :: camelChars rest
  | c :: rest => c :: camelChars rest
  | [] => []

def camel (name : String) : FieldName := ⟨name, String.ofList (camelChars name.toList)⟩

def timeRule (v : Json.Value) : Except (Option String) Moment :=
  match timeOfValue v with
  | .ok m => .ok m
  | .error fault => .error fault.message?

namespace Shapes

def text (name : String) : FieldName × Shape := (camel name, .text)

def whole (name : String) : FieldName × Shape := (camel name, .whole)

def truth (name : String) : FieldName × Shape := (camel name, .truth)

def time (name : String) : FieldName × Shape := (camel name, .time timeRule)

def of (name : String) (s : Shape) : FieldName × Shape := (camel name, s)

def href : Shape := .record [text "href"]

def links : Shape := .record [of "web" href, of "statuses" href, of "avatar" href]

def linksField : FieldName × Shape := (⟨"links", "_links"⟩, links)

def container : Shape := .record [text "id"]

def resourceContainers : Shape :=
  .record [of "collection" container, of "account" container, of "project" container]

def user : Shape :=
  .record [text "name", text "email", time "date", text "display_name", text "url", linksField,
    text "id", text "unique_name", text "image_url", text "descriptor"]

def project : Shape :=
  .record [text "id", text "name", text "url", text "state", whole "revision", text "visibility",
    time "last_update_time"]

def repository : Shape :=
  .record [text "id", text "name", text "url", of "project" project, text "default_branch",
    of "size" (.nullable .whole), text "remote_url", of "ssh_url" (.nullable .text),
    of "web_url" (.nullable .text), of "is_disabled" (.nullable .truth),
    of "is_in_maintenance" (.nullable .truth)]

def commit : Shape :=
  .record [text "commit_id", of "author" user, of "committer" user, text "comment", text "url"]

def refUpdate : Shape := .record [text "name", text "old_object_id", text "new_object_id"]

def pullRequest : Shape :=
  .record [of "repository" repository, whole "pull_request_id", whole "code_review_id",
    text "status", of "created_by" user, time "creation_date", text "title", text "description",
    text "source_ref_name", text "target_ref_name", text "merge_status", truth "is_draft",
    text "merge_id", of "last_merge_source_commit" commit, of "last_merge_target_commit" commit,
    of "last_merge_commit" commit, of "reviewers" (.list user), text "url", linksField,
    truth "supports_iterations", text "artifact_id"]

def push : Shape :=
  .record [of "commits" (.list commit), of "ref_updates" (.list refUpdate),
    of "repository" repository, of "pushed_by" user, whole "push_id", time "date", text "url"]

end Shapes

inductive Model where
  | href
  | links
  | container
  | resourceContainers
  | user
  | project
  | repository
  | commit
  | refUpdate
  | pullRequest
  | push
deriving DecidableEq, Repr

namespace Model

def all : List Model :=
  [href, links, container, resourceContainers, user, project, repository, commit, refUpdate,
    pullRequest, push]

def shape : Model → Shape
  | href => Shapes.href
  | links => Shapes.links
  | container => Shapes.container
  | resourceContainers => Shapes.resourceContainers
  | user => Shapes.user
  | project => Shapes.project
  | repository => Shapes.repository
  | commit => Shapes.commit
  | refUpdate => Shapes.refUpdate
  | pullRequest => Shapes.pullRequest
  | push => Shapes.push

def name : Model → String
  | href => "Href"
  | links => "Links"
  | container => "Container"
  | resourceContainers => "ResourceContainers"
  | user => "User"
  | project => "Project"
  | repository => "Repository"
  | commit => "Commit"
  | refUpdate => "RefUpdate"
  | pullRequest => "PullRequestEventResource"
  | push => "PushEventResource"

def ofName? (name : String) : Option Model := all.find? (·.name == name)

def decode (m : Model) (payload : Json.Value) : Checked Decoded := m.shape.decode payload

end Model
end StatusRelay.ServiceHook
