import Schemata.Error
import Schemata.History

/-!
Registries: the versioned schemas of one name in a directory, as one process sees them.

A registry knows which schemas are listed, the histories it has read, and the versions that models were
registered as by this process. Every operation is a step on the registry and its directory, and sees one
reading of the clock.
-/
namespace Schemata

structure Registry where
  name : String
  /-- Only schemas whose names start with this are loaded. -/
  start : Option String
  listed : Names
  histories : Table String History
  models : Table Handle Version
deriving DecidableEq, Repr

namespace Registry

/-- A registry that has not been loaded. An empty beginning is the same as none. -/
def new (name : String) (start : Option String) : Registry :=
  ⟨name, start.bind fun s => if s = "" then none else some s, Table.empty, Table.empty, Table.empty⟩

def schemaNames (r : Registry) : List String := r.listed.keys

def inspect (r : Registry) : String :=
  let start := match r.start with
    | some s => "Some(" ++ Text.quoted s ++ ")"
    | none => "None"
  "SchemaRegistry \x7b registry_name: " ++ Text.quoted r.name ++ ", prefix: " ++ start ++
    ", schemas: " ++ String.ofList (Text.decimal r.listed.size) ++
    ", registered_models: " ++ String.ofList (Text.decimal r.models.size) ++ " \x7d"

section
variable {σ : Type} [Directory σ]

def drainNames (now : Instant) (request : ListRequest) (names : Names) (s : σ) :
    Except DirectoryError Names × σ :=
  match _listed : Directory.listSchemas now request s with
  | (.error e, s) => (.error e, s)
  | (.ok page, s) =>
    let names := names.addAll (page.items.map (·.name))
    match _more : page.next with
    | none => (.ok names, s)
    | some token => drainNames now { request with token := some token } names s
termination_by Directory.schemasLeft request s
decreasing_by exact Directory.schemasLeft_lt _listed _more

/-- Lists every schema of the registry, and forgets the histories read before. The schemas of registered
models stay listed. -/
def load (now : Instant) (r : Registry) (s : σ) : Except SchemaError Unit × Registry × σ :=
  match drainNames now ⟨r.name, r.start, none⟩ Table.empty s with
  | (.error e, s) => (.error (.ofDirectory e), r, s)
  | (.ok names, s) =>
    (.ok (),
      { r with
        listed := names.addAll (r.models.values.map (·.name))
        histories := Table.empty },
      s)

def loaded (now : Instant) (name : String) (start : Option String) (s : σ) :
    Except SchemaError Registry × σ :=
  match (new name start).load now s with
  | (.error e, _, s) => (.error e, s)
  | (.ok _, r, s) => (.ok r, s)

def describeAll (registry name : String) :
    List VersionSummary → History → σ → Except DirectoryError History × σ
  | [], history, s => (.ok history, s)
  | summary :: rest, history, s =>
    match Directory.describe registry name (some summary.version) s with
    | (.error e, s) => (.error e, s)
    | (.ok described, s) =>
      describeAll registry name rest (history.insert (described.toVersion registry)).1 s

theorem versionsLeft_describeAll {registry name : String} {token : Option String}
    {summaries : List VersionSummary} {history : History} {s s' : σ}
    {answer : Except DirectoryError History}
    (described : describeAll registry name summaries history s = (answer, s')) :
    Directory.versionsLeft registry name token s' = Directory.versionsLeft registry name token s := by
  have kept (version : Option String) (s : σ) :
      Directory.versionsLeft registry name token (Directory.describe registry name version s).2 =
        Directory.versionsLeft registry name token s := Directory.versionsLeft_describe
  induction summaries generalizing history s with
  | nil => cases described; rfl
  | cons summary rest ih =>
    have first := kept (some summary.version) s
    unfold describeAll at described
    split at described
    · rename_i e s₁ failed
      rw [failed] at first
      cases described
      exact first
    · rename_i found s₁ answered
      rw [answered] at first
      exact (ih described).trans first

def drainVersions (registry name : String) (token : Option String) (history : History) (s : σ) :
    Except DirectoryError History × σ :=
  match _listed : Directory.listVersions registry name token s with
  | (.error e, s) => (.error e, s)
  | (.ok page, s) =>
    match _described : describeAll registry name page.items history s with
    | (.error e, s) => (.error e, s)
    | (.ok history, s) =>
      match _more : page.next with
      | none => (.ok history, s)
      | some next => drainVersions registry name (some next) history s
termination_by Directory.versionsLeft registry name token s
decreasing_by
  exact Nat.lt_of_le_of_lt (Nat.le_of_eq (versionsLeft_describeAll _described))
    (Directory.versionsLeft_lt _listed _more)

def readHistory (registry name : String) (s : σ) : Except DirectoryError History × σ :=
  drainVersions registry name none (History.empty registry name) s

/-- The history of a listed schema. It is read once and then kept. -/
def history (name : String) (r : Registry) (s : σ) : Except SchemaError History × Registry × σ :=
  match r.histories.get? name with
  | some history => (.ok history, r, s)
  | none =>
    if r.listed.contains name then
      match readHistory r.name name s with
      | (.error e, s) => (.error (.ofDirectory e), r, s)
      | (.ok history, s) =>
        (.ok history, { r with histories := r.histories.insert name history }, s)
    else (.error (.absent name none), r, s)

def document (name : String) (version : Option String) (r : Registry) (s : σ) :
    Except SchemaError Document × Registry × σ :=
  match r.history name s with
  | (.error e, r, s) => (.error e, r, s)
  | (.ok history, r, s) =>
    match history.get? version with
    | some found => (.ok found.document, r, s)
    | none => (.error (.absent name version), r, s)

def modelOf (document : Document) : Except SchemaError Model :=
  match document.value? with
  | none => .error .json
  | some schema =>
    match Model.ofSchema schema with
    | .error e => .error (.reflection e)
    | .ok model => .ok model

def model (name : String) (version : Option String) (r : Registry) (s : σ) :
    Except SchemaError Model × Registry × σ :=
  match r.document name version s with
  | (.error e, r, s) => (.error e, r, s)
  | (.ok document, r, s) => (modelOf document, r, s)

def readForUpdate (name : String) (r : Registry) (s : σ) :
    Except DirectoryError Unit × Registry × σ :=
  if r.histories.contains name then (.ok (), r, s)
  else
    match readHistory r.name name s with
    | (.error e, s) => (.error e, r, s)
    | (.ok history, s) => (.ok (), { r with histories := r.histories.insert name history }, s)

/-- Adds a version to the history of its name, and remembers what the history then holds under its
identifier as the version of the model. -/
def remember (name : String) (handle : Handle) (version : Version) (r : Registry) :
    Except SchemaError Version × Registry :=
  let history := (r.histories.get? version.name).getD (.empty r.name version.name)
  let history := (history.insert version).1
  let r := { r with histories := r.histories.insert version.name history }
  match history.get? (some version.id.text) with
  | none => (.error (.absent version.name (some version.id.text)), r)
  | some kept =>
    (.ok kept, { r with listed := r.listed.add name, models := r.models.insert handle kept })

/-- Creates the schema of a model, or adds a version if its document changed. An unchanged document is
answered with the current version. -/
def register (now : Instant) (name : QualifiedName) (model : Model) (r : Registry) (s : σ) :
    Except SchemaError Version × Registry × σ :=
  let schema := name.text
  let document := model.document
  let request : PutRequest :=
    ⟨r.name, schema, document.text, .jsonSchemaDraft4, model.description⟩
  let refuse (fault : RegistrationFault) (r : Registry) (s : σ) :
      Except SchemaError Version × Registry × σ := (.error (.registration schema fault), r, s)
  let done (version : Version) (r : Registry) (s : σ) : Except SchemaError Version × Registry × σ :=
    let kept := r.remember schema model.handle version
    (kept.1, kept.2, s)
  match Directory.describe r.name schema none s with
  | (.ok _, s) =>
    match r.readForUpdate schema s with
    | (.error e, r, s) => refuse (.history e) r s
    | (.ok _, r, s) =>
      match Directory.update now request s with
      | (.ok receipt, s) => done (receipt.toVersion r.name document) r s
      | (.error (.conflict _), s) =>
        match Directory.describe r.name schema none s with
        | (.ok described, s) => done (described.toVersion r.name) r s
        | (.error e, s) => refuse (.call e) r s
      | (.error e, s) => refuse (.call e) r s
  | (.error (.notFound _ _), s) =>
    match Directory.create now request s with
    | (.ok receipt, s) => done (receipt.toVersion r.name document) r s
    | (.error e, s) => refuse (.call e) r s
  | (.error e, s) => refuse (.call e) r s

end

/-- The identity of the version that a model was registered as by this process. -/
def identityOf (model : Handle) (r : Registry) : Except SchemaError Identity :=
  match r.models.get? model with
  | none => .error (.unregistered model)
  | some version =>
    match version.identity with
    | .ok id => .ok id
    | .error fault => .error (.identity fault)

end Registry

end Schemata
