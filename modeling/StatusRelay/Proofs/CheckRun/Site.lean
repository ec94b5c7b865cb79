import StatusRelay.Proofs.CheckRun.Listed
import StatusRelay.Proofs.Task.Course

namespace StatusRelay

open Json (Value)

namespace Json.Value

def text? : Value → Option String
  | .str s => some s
  | _ => none

def whole? : Value → Option Int
  | .int n => some n
  | _ => none

end Json.Value

namespace CheckRun

open CheckRun.Ensure (Asks)

structure Site where
  /-- The address of the API, as it is configured. -/
  apiUrl : String
  query : Query

namespace Site

def base (s : Site) : String := Client.normalBase s.apiUrl

def creationPath (s : Site) : String :=
  "/repos/" ++ s.query.organization ++ "/" ++ s.query.repository ++ "/check-runs"

/-- The external name, or none, of the check run that a request makes on the commit. -/
def made? (s : Site) (req : Request) : Option (Option String) :=
  let body := req.body.getD .null
  if req.method == "POST" && req.url == s.base ++ s.creationPath &&
      (body.get? "head_sha").bind Value.text? == some s.query.sha then
    some ((body.get? "external_id").bind Value.text?)
  else none

def listed? (s : Site) (req : Request) : Option (Nat × Nat) :=
  let whole (key : String) := (req.params.bind (Table.get? · key)).bind Value.whole?
  if req.method == "GET" && req.url == s.base ++ s.query.path &&
      whole "app_id" == some s.query.appId then
    match whole "per_page", whole "page" with
    | some size, some page => some (size.toNat, page.toNat)
    | _, _ => none
  else none

/-- What a request makes of the check runs, in the order in which they were made, and the answer
to it. A new check run gets the number `id`. -/
def serve (s : Site) (runs : List CheckRun) (id : Int) (req : Request) :
    List CheckRun × Response :=
  match s.made? req with
  | some name => (runs ++ [⟨id, name⟩], ⟨201, .json (.obj [("id", .int id)])⟩)
  | none =>
    match s.listed? req with
    | some (size, n) =>
      (runs, ⟨200, .json (Listing.shown ⟨runs.length, Page.slice size n runs⟩)⟩)
    | none => (runs, ⟨200, .json (.obj [])⟩)

variable {s : Site} {i : Identity} {g : Goal} {req : Request} (runs : List CheckRun) (id : Int)

theorem serve_page {n : Nat} {found : List CheckRun} (hi : i.apiUrl = s.base)
    (hq : g.query = s.query) (h : Asks i g (.looking g ⟨g.run, ⟨g.query, n, found⟩⟩) req) :
    s.serve runs id req = (runs, Listing.answer n runs) := by
  cases h with
  | page =>
    have hu : i.url g.query.path = s.base ++ s.query.path := by
      rw [hq, ← hi]
      simp only [Query.path, String.append_assoc, Identity.url_repos]
    have ha : g.appId = s.query.appId := by rw [← hq]; rfl
    simp [serve, made?, listed?, hu, ha, Page.params, Table.get?_cons, Value.whole?,
      Listing.answer, Listing.page]

theorem serve_creation (hi : i.apiUrl = s.base) (hq : g.query = s.query)
    (h : Asks i g (.creating g ⟨g.write⟩) req) :
    (s.serve runs id req).1 = runs ++ [⟨id, some g.run⟩] := by
  cases h with
  | creation =>
    have hu : i.url (Creation.path g.write.event) = s.base ++ s.creationPath := by
      rw [creationPath, ← hq, ← hi]
      simp only [Creation.path, String.append_assoc, Identity.url_repos]
      rfl
    have hsha : g.write.event.sha = s.query.sha := by rw [← hq]; rfl
    simp [serve, made?, hu, hsha, Creation.payload, Json.Value.get?, Table.get?_cons,
      Value.text?, Goal.run]

theorem serve_update {w : StatusWrite} {i : Identity} {number : Int}
    (h : w.Updates i number req) : (s.serve runs id req).1 = runs := by
  obtain ⟨now, body, bearer, -, rfl⟩ := h
  simp [serve, made?, listed?]

end Site
end CheckRun
end StatusRelay
