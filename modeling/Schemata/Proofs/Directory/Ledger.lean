import Schemata.Directory.Basic
import Schemata.Proofs.Directory.Report

/-! What a directory answers, times left aside, is decided by the versions it holds. A ledger holds them without
their times and answers for a directory; a directory keeps a ledger if its own answers are those of the ledger,
now and after every request. -/
namespace Schemata

/-- A call of a directory with what is passed to it. -/
inductive DirectoryRequest where
  | listSchemas (request : ListRequest)
  | listVersions (registry name : String) (token : Option String)
  | describe (registry name : String) (version : Option String)
  | create (request : PutRequest)
  | update (request : PutRequest)
deriving DecidableEq, Repr

inductive DirectoryReply where
  | schemas (answer : Except DirectoryError (Page SchemaSummary))
  | versions (answer : Except DirectoryError (Page VersionSummary))
  | described (answer : Except DirectoryError Described)
  | receipt (answer : Except DirectoryError Receipt)
deriving DecidableEq

namespace DirectoryRequest

def answer [Directory σ] (now : Instant) (s : σ) : DirectoryRequest → DirectoryReply × σ
  | listSchemas request => Prod.map .schemas id (Directory.listSchemas now request s)
  | listVersions registry name token => Prod.map .versions id (Directory.listVersions registry name token s)
  | describe registry name version => Prod.map .described id (Directory.describe registry name version s)
  | create request => Prod.map .receipt id (Directory.create now request s)
  | update request => Prod.map .receipt id (Directory.update now request s)

/-- The registry that is asked about, and the schema in it if there is one. -/
def names : DirectoryRequest → List String
  | listSchemas request => [request.registry]
  | listVersions registry name _ | describe registry name _ => [registry, name]
  | create request | update request => [request.registry, request.name]

end DirectoryRequest

/-- The replies to requests that are made one after the other, each at the clock's next reading. -/
def Directory.replies [Directory σ] (clock : Nat → { now : Instant // now.Proper }) (s : σ) :
    List DirectoryRequest → List DirectoryReply
  | [] => []
  | request :: rest =>
    let answered := request.answer (clock 0).val s
    answered.1 :: replies (fun n => clock (n + 1)) answered.2 rest

/-- Stands for every time where only the rest of an answer counts. -/
def Instant.epoch : Instant := ⟨0, 0⟩

def SchemaSummary.undated (s : SchemaSummary) : SchemaSummary := { s with lastModified := .epoch }

def Receipt.undated (r : Receipt) : Receipt := { r with lastModified := .epoch, createdAt := .epoch }

def Described.undated (d : Described) : Described := { d with receipt := d.receipt.undated }

namespace DirectoryReply

def undated : DirectoryReply → DirectoryReply
  | schemas answer => schemas (answer.map (Page.map SchemaSummary.undated))
  | versions answer => versions answer
  | described answer => described (answer.map Described.undated)
  | receipt answer => receipt (answer.map Receipt.undated)

end DirectoryReply

/-- A version without its time. -/
structure Edition where
  content : String
  description : Option String
  format : Format
deriving DecidableEq, Repr

abbrev Editions := Table VersionId Edition

def PutRequest.edition (request : PutRequest) : Edition := ⟨request.content, request.description, request.format⟩

def ListRequest.wants (request : ListRequest) (name : String) : Bool :=
  match request.start with
  | some start => (Text.dropLead? start.toList name.toList).isSome
  | none => true

/-- The editions of the schemas of each registry. -/
structure Ledger where
  schemas : String → Table String Editions
  pageSize : Nat

namespace Ledger

def editions (l : Ledger) (registry name : String) : Editions := ((l.schemas registry).get? name).getD Table.empty

def receipt (registry name : String) (id : VersionId) (edition : Edition) : Receipt where
  description := edition.description
  lastModified := .epoch
  arn := schemaArn registry name
  name
  version := id.text
  tags := Table.empty
  format := edition.format
  createdAt := .epoch

def schemaSummary (registry : String) (entry : String × Editions) : SchemaSummary where
  arn := schemaArn registry entry.1
  name := entry.1
  lastModified := .epoch
  tags := Table.empty
  versionCount := .ofNat entry.2.size

def versionSummary (registry name : String) (entry : VersionId × Edition) : VersionSummary :=
  ⟨schemaArn registry name, name, entry.1.text, entry.2.format⟩

def notFound (name : String) (version : Option String) : DirectoryError :=
  .notFound name (version.getD "latest")

def listSchemas (request : ListRequest) (l : Ledger) : Except DirectoryError (Page SchemaSummary) :=
  Page.slice (((l.schemas request.registry).entries.filter fun entry => request.wants entry.1).map
    (schemaSummary request.registry)) request.token l.pageSize

def listVersions (registry name : String) (token : Option String) (l : Ledger) :
    Except DirectoryError (Page VersionSummary) :=
  match (l.schemas registry).get? name with
  | none => .error (notFound name none)
  | some editions => Page.slice (editions.entries.map (versionSummary registry name)) token l.pageSize

/-- The version that is asked for among those of a schema, or the latest one. -/
def chosen? (version : Option String) (editions : Editions) : Option (VersionId × Edition) :=
  match version with
  | some text => (editions.get? ⟨text⟩).map fun edition => (⟨text⟩, edition)
  | none => editions.last?

def describe (registry name : String) (version : Option String) (l : Ledger) : Except DirectoryError Described :=
  match chosen? version (l.editions registry name) with
  | none => .error (notFound name version)
  | some (id, edition) => .ok ⟨edition.content, receipt registry name id edition⟩

/-- The ledger with an edition set. -/
def put (l : Ledger) (request : PutRequest) (id : VersionId) : Ledger :=
  { l with
    schemas := fun registry =>
      if registry = request.registry then
        (l.schemas registry).insert request.name ((l.editions registry request.name).insert id request.edition)
      else l.schemas registry }

def write (request : PutRequest) (id : VersionId) (l : Ledger) : Except DirectoryError Receipt × Ledger :=
  (.ok (receipt request.registry request.name id request.edition), l.put request id)

/-- A schema is only created if it has no version. -/
def create (request : PutRequest) (l : Ledger) : Except DirectoryError Receipt × Ledger :=
  match (l.editions request.registry request.name).last? with
  | none => write request .first l
  | some _ => (.error (.rejected ("schema " ++ request.name ++ " already exists")), l)

/-- Only a schema with a version is updated, and only to another content. -/
def update (request : PutRequest) (l : Ledger) : Except DirectoryError Receipt × Ledger :=
  match (l.editions request.registry request.name).last? with
  | none => (.error (notFound request.name none), l)
  | some (id, latest) =>
    if Checksum.ofText latest.content = Checksum.ofText request.content then
      (.error (.conflict request.name), l)
    else write request id.next l

/-- What a directory with this ledger replies to a request, and its ledger afterwards. -/
def answer (l : Ledger) : DirectoryRequest → DirectoryReply × Ledger
  | .listSchemas request => (.schemas (l.listSchemas request), l)
  | .listVersions registry name token => (.versions (l.listVersions registry name token), l)
  | .describe registry name version => (.described (l.describe registry name version), l)
  | .create request => Prod.map .receipt id (l.create request)
  | .update request => Prod.map .receipt id (l.update request)

def replies (l : Ledger) : List DirectoryRequest → List DirectoryReply
  | [] => []
  | request :: rest => (l.answer request).1 :: (l.answer request).2.replies rest

end Ledger

/-- Directories that reply as their ledger does, times left aside, to the requests that they accept. -/
class LedgerDirectory (σ : Type) [Directory σ] where
  ledger : σ → Ledger
  /-- What accepted requests to an empty directory lead to. -/
  Kept : σ → Prop
  Accepts : DirectoryRequest → Prop
  answer_law {now : Instant} {request : DirectoryRequest} {s : σ} : now.Proper → Kept s → Accepts request →
    Kept (request.answer now s).2 ∧
      ((request.answer now s).1.undated, ledger (request.answer now s).2) = (ledger s).answer request

/-- The replies to a run of requests are those of the ledger. -/
theorem LedgerDirectory.replies_undated [Directory σ] [LedgerDirectory σ] {requests : List DirectoryRequest}
    (clock : Nat → { now : Instant // now.Proper }) {s : σ} (kept : Kept s)
    (accepted : ∀ request ∈ requests, Accepts σ request) :
    (Directory.replies clock s requests).map DirectoryReply.undated = (ledger s).replies requests := by
  -- One request keeps what the next one needs, so the law of a single request is enough.
  induction requests generalizing clock s with
  | nil => rfl
  | cons request rest ih =>
    obtain ⟨kept', answered⟩ := answer_law (clock 0).property kept (accepted request List.mem_cons_self)
    have later := ih (fun n => clock (n + 1)) kept' fun other inside => accepted other (List.mem_cons_of_mem _ inside)
    rw [Ledger.replies, ← answered, ← later]
    rfl

namespace Memory

open Table

def Stored.edition (s : Stored) : Edition := ⟨s.content, s.description, s.format⟩

def ledger (s : Memory) : Ledger where
  schemas registry := (s.registry registry).mapValues (mapValues Stored.edition)
  pageSize := s.pageSize

theorem get?_ledger (s : Memory) (registry name : String) :
    (s.ledger.schemas registry).get? name = (s.versions? registry name).map (mapValues Stored.edition) :=
  get?_mapValues _ _ _

theorem editions_ledger (s : Memory) (registry name : String) :
    s.ledger.editions registry name = (s.versions registry name).mapValues Stored.edition := by
  rw [Ledger.editions, get?_ledger, versions]
  cases s.versions? registry name <;> rfl

theorem listSchemas_ledger (now : Instant) (request : ListRequest) (s : Memory) :
    (listSchemas now request s).1.map (Page.map SchemaSummary.undated) = s.ledger.listSchemas request := by
  have listed : ((s.wanted request).map (summary now request.registry)).map SchemaSummary.undated =
      ((s.ledger.schemas request.registry).entries.filter fun entry => request.wants entry.1).map
        (Ledger.schemaSummary request.registry) := by
    simp only [wanted, ledger, mapValues, List.filter_map, List.map_map]
    refine List.map_congr_left fun entry _ => ?_
    simp [summary, SchemaSummary.undated, Ledger.schemaSummary, Table.size]
  rw [listSchemas, ← Page.slice_map, listed]
  rfl

theorem listVersions_ledger (registry name : String) (token : Option String) (s : Memory) :
    (listVersions registry name token s).1 = s.ledger.listVersions registry name token := by
  rw [listVersions, Ledger.listVersions, get?_ledger]
  cases s.versions? registry name with
  | none => rfl
  | some versions =>
    simp only [Option.map_some, versionSummaries, mapValues, List.map_map]
    rfl

theorem describe_ledger (registry name : String) (version : Option String) (s : Memory) :
    (describe registry name version s).1.map Described.undated = s.ledger.describe registry name version := by
  rw [describe, Ledger.describe, editions_ledger, versions]
  cases s.versions? registry name with
  | none => cases version <;> rfl
  | some versions =>
    cases version with
    | some text =>
      simp only [Ledger.chosen?, Option.getD_some, get?_mapValues]
      cases versions.get? ⟨text⟩ <;> rfl
    | none =>
      simp only [Ledger.chosen?, Option.getD_some, last?_mapValues]
      cases versions.last? <;> rfl

theorem ledger_putVersions (now : Instant) (request : PutRequest) (id : VersionId) (s : Memory) :
    (s.putVersions request.registry request.name ((s.versions request.registry request.name).insert id
      ⟨request.content, request.description, request.format, now⟩)).ledger = s.ledger.put request id := by
  have set (registry : String) : (s.putVersions request.registry request.name
      ((s.versions request.registry request.name).insert id
        ⟨request.content, request.description, request.format, now⟩)).ledger.schemas registry =
      (s.ledger.put request id).schemas registry := by
    simp only [Ledger.put, editions_ledger]
    by_cases same : registry = request.registry
    · subst same
      simp only [ledger, Memory.registry, putVersions, get?_insert_same, Option.getD_some, mapValues_insert, if_true]
      rfl
    · simp only [ledger, Memory.registry, putVersions, get?_insert_other same, if_neg same]
  exact congrArg (Ledger.mk · s.pageSize) (funext set)

/-- A write is answered as by the ledger. -/
theorem write_ledger (now : Instant) (request : PutRequest) (id : VersionId) (s : Memory) :
    let written := write now request (s.versions request.registry request.name) id s
    (written.1.map Receipt.undated, written.2.ledger) = s.ledger.write request id :=
  Prod.ext rfl (ledger_putVersions now request id s)

/-- A directory in order that accepts writes. -/
structure Open (s : Memory) : Prop where
  orderly : s.Orderly
  accepts : s.refusal = none

section
variable {s : Memory} (opened : s.Open)
include opened

theorem Open.create_ledger (now : Instant) (request : PutRequest) :
    ((create now request s).1.map Receipt.undated, (create now request s).2.ledger) = s.ledger.create request := by
  obtain ⟨calls, made⟩ := create_eq now request s
  have creates := s.creates request
  rw [made, Ledger.create, editions_ledger]
  generalize s.creation request = decision at creates ⊢
  cases creates with
  | closed refused => cases refused.symm.trans opened.accepts
  | @taken versions _ known =>
    have versioned := (opened.orderly.versions _ _ versions known).2
    obtain ⟨entry, last⟩ := Option.ne_none_iff_exists'.mp fun none => versioned (last?_eq_none.mp none)
    rw [versions_of_known known, last?_mapValues, last]
    rfl
  | added _ unknown =>
    rw [versions_of_unknown unknown]
    exact write_ledger now request .first { s with calls }

theorem Open.update_ledger (now : Instant) (request : PutRequest) :
    ((update now request s).1.map Receipt.undated, (update now request s).2.ledger) = s.ledger.update request := by
  obtain ⟨calls, made⟩ := update_eq now request s
  have revises := opened.orderly.revises request
  rw [made, Ledger.update, editions_ledger]
  generalize s.revision request = decision at revises ⊢
  cases revises with
  | closed refused => cases refused.symm.trans opened.accepts
  | unknown _ absent =>
    rw [versions_of_unknown absent]
    rfl
  | unchanged _ known last same =>
    rw [versions_of_known known, last?_mapValues, last]
    simp only [Option.map_some, Stored.edition, if_pos same]
    rfl
  | @added _ id _ _ known last differs =>
    rw [versions_of_known known, last?_mapValues, last]
    simp only [Option.map_some, Stored.edition, if_neg differs]
    exact write_ledger now request id.next { s with calls }

theorem Open.create (now : Instant) (request : PutRequest) : (create now request s).2.Open :=
  ⟨(create_cases opened.orderly).1, by rw [refusal_create, opened.accepts]⟩

theorem Open.update (now : Instant) (request : PutRequest) : (update now request s).2.Open :=
  ⟨(update_cases opened.orderly).1, by rw [refusal_update, opened.accepts]⟩

end

instance : LedgerDirectory Memory where
  ledger := ledger
  Kept := Open
  Accepts _ := True
  answer_law {now request s} _ opened _ := by
    cases request with
    | listSchemas request =>
      exact ⟨⟨opened.orderly.counted _, opened.accepts⟩,
        Prod.ext (congrArg DirectoryReply.schemas (s.listSchemas_ledger now request)) rfl⟩
    | listVersions registry name token =>
      exact ⟨⟨opened.orderly.counted _, opened.accepts⟩,
        Prod.ext (congrArg DirectoryReply.versions (s.listVersions_ledger registry name token)) rfl⟩
    | describe registry name version =>
      exact ⟨⟨opened.orderly.counted _, opened.accepts⟩,
        Prod.ext (congrArg DirectoryReply.described (s.describe_ledger registry name version)) rfl⟩
    | create request =>
      have answered := opened.create_ledger now request
      exact ⟨opened.create now request, congrArg (Prod.map DirectoryReply.receipt id) answered⟩
    | update request =>
      have answered := opened.update_ledger now request
      exact ⟨opened.update now request, congrArg (Prod.map DirectoryReply.receipt id) answered⟩

end Memory

end Schemata
