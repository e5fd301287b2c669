import Schemata.Proofs.Envelope
import Schemata.Proofs.Json.ReadsBack
import Schemata.Proofs.Model.Wire

/-! Every kind of record is read back from the document that it is written as. A document may leave parts out, have
`null` for others, and members that the record does not know; what is read from it is written in one form, and that
is read as the same. -/
namespace Schemata

open Record Written

theorem Format.readsBack : ReadsBack Format.toJson Format.ofWritten? fun _ => True :=
  .of_proper (fun f _ => f.ofWritten?_toJson) fun _ _ _ => trivial

theorem Instant.readsBack : ReadsBack Instant.toJson Instant.ofWritten? Instant.Proper := by
  refine .of_proper (fun _ => Instant.ofWritten?_toJson) fun w t found => ?_
  obtain ⟨text, -, found⟩ := Option.bind_eq_some_iff.mp found
  exact Instant.proper_of_ofText? found

theorem Tags.readsBack : ReadsBack Tags.toJson Tags.ofWritten? Table.Sorted := by
  refine .of_proper (fun _ => Tags.ofWritten?_toJson) fun w tags found => ?_
  obtain ⟨entries, -, rfl⟩ := Option.map_eq_some_iff.mp found
  exact Table.sorted_ofList entries

theorem Tags.sorted_of_defaulted {r : Record} {key : String} {tags : Tags}
    (found : r.defaulted key Table.empty Tags.ofWritten? = some tags) : tags.Sorted :=
  Tags.readsBack.proper_defaulted Table.sorted_empty found

namespace ListRequest

def parts (q : ListRequest) : List (String × Option Written) :=
  [("RegistryName", some (.string q.registry)), ("SchemaNamePrefix", q.start.map .string),
   ("NextToken", q.token.map .string)]

theorem ofJson_toJson (q : ListRequest) : ofJson q.toJson = .object (present q.parts) := by
  obtain ⟨registry, start, token⟩ := q
  cases start <;> cases token <;> rfl

theorem readsBack : ReadsBack toJson ofWritten? fun _ => True := by
  refine .of_proper (fun q _ => ?_) fun _ _ _ => trivial
  obtain ⟨r, record, found⟩ := of?_parts ["RegistryName", "SchemaNamePrefix", "NextToken"] q.ofJson_toJson rfl
    (by decide)
  simp only [parts, List.forall_mem_cons] at found
  obtain ⟨registry, start, token, -⟩ := found
  rw [ofWritten?, record]
  simp only [required_string registry, optional_string start, optional_string token, Option.bind_eq_bind,
    Option.bind_some, Option.pure_def]

end ListRequest

namespace PutRequest

def parts (q : PutRequest) : List (String × Option Written) :=
  [("RegistryName", some (.string q.registry)), ("SchemaName", some (.string q.name)),
   ("Content", some (.string q.content)), ("Type", some (ofJson q.format.toJson)),
   ("Description", q.description.map .string)]

theorem ofJson_toJson (q : PutRequest) : ofJson q.toJson = .object (present q.parts) := by
  obtain ⟨registry, name, content, format, description⟩ := q
  cases description <;> rfl

theorem readsBack : ReadsBack toJson ofWritten? fun _ => True := by
  refine .of_proper (fun q _ => ?_) fun _ _ _ => trivial
  obtain ⟨r, record, found⟩ := of?_parts ["RegistryName", "SchemaName", "Content", "Type", "Description"]
    q.ofJson_toJson rfl (by decide)
  simp only [parts, List.forall_mem_cons] at found
  obtain ⟨registry, name, content, format, description, -⟩ := found
  rw [ofWritten?, record]
  simp only [required_string registry, required_string name, required_string content,
    Format.readsBack.required_part trivial format, optional_string description, Option.bind_eq_bind,
    Option.bind_some, Option.pure_def]

end PutRequest

namespace Page

variable {write : α → Json} {read? : Written → Option α} {Proper : α → Prop}

/-- A page with a key for its items, as both kinds of pages are written. -/
def toJsonUnder (key : String) (write : α → Json) (p : Page α) : Json :=
  .object ((key, .array (p.items.map write)) :: nextTokenMember p.next)

def ofWrittenUnder? (key : String) (read? : Written → Option α) (w : Written) : Option (Page α) := do
  let r ← Record.of? [key, "NextToken"] w
  let items ← r.required key (Written.list? read?)
  let next ← r.optional "NextToken" Written.string?
  return ⟨items, next⟩

theorem ofJson_toJsonUnder (key : String) (p : Page α) : ofJson (p.toJsonUnder key write) =
    .object (present [(key, some (ofJson (.array (p.items.map write)))), ("NextToken", p.next.map .string)]) := by
  obtain ⟨items, next⟩ := p
  cases next <;> rfl

theorem readsBack (key : String) (apart : key ≠ "NextToken") (item : ReadsBack write read? Proper) :
    ReadsBack (toJsonUnder key write) (ofWrittenUnder? key read?) fun p => ∀ a ∈ p.items, Proper a := by
  refine .of_proper (fun p proper => ?_) fun w p found => ?_
  · obtain ⟨r, record, found⟩ := of?_parts [key, "NextToken"] (p.ofJson_toJsonUnder key) rfl (by simp [apart])
    simp only [List.forall_mem_cons] at found
    obtain ⟨items, next, -⟩ := found
    rw [ofWrittenUnder?, record]
    simp only [item.list.required_part proper items, optional_string next, Option.bind_eq_bind, Option.bind_some,
      Option.pure_def]
  · simp only [ofWrittenUnder?, Option.bind_eq_bind, Option.bind_eq_some_iff, Option.pure_def,
      Option.some.injEq] at found
    obtain ⟨r, -, items, listed, next, -, rfl⟩ := found
    exact item.list.proper_required listed

end Page

namespace SchemaSummary

/-- A summary that can be read back: its time is on the calendar and its tags in order. -/
structure Proper (s : SchemaSummary) : Prop where
  modified : s.lastModified.Proper
  tags : s.tags.Sorted

def parts (s : SchemaSummary) : List (String × Option Written) :=
  [("SchemaArn", some (.string s.arn)), ("SchemaName", some (.string s.name)),
   ("LastModified", some (ofJson s.lastModified.toJson)), ("Tags", some (ofJson s.tags.toJson)),
   ("VersionCount", some (ofJson (.ofWord s.versionCount)))]

theorem readsBack : ReadsBack toJson ofWritten? Proper := by
  refine .of_proper (fun s proper => ?_) fun w s found => ?_
  · have written : ofJson s.toJson = .object (present s.parts) := rfl
    obtain ⟨r, record, found⟩ := of?_parts ["SchemaArn", "SchemaName", "LastModified", "Tags", "VersionCount"]
      written rfl (by decide)
    simp only [parts, List.forall_mem_cons] at found
    obtain ⟨arn, name, modified, tags, count, -⟩ := found
    rw [ofWritten?, record]
    simp only [required_string arn, required_string name, Instant.readsBack.required_part proper.modified modified,
      Tags.readsBack.defaulted_part proper.tags tags, ReadsBack.word.required_part trivial count,
      Option.bind_eq_bind, Option.bind_some, Option.pure_def]
  · simp only [ofWritten?, Option.bind_eq_bind, Option.bind_eq_some_iff, Option.pure_def, Option.some.injEq] at found
    obtain ⟨r, -, arn, -, name, -, modified, dated, tags, tagged, count, -, rfl⟩ := found
    exact ⟨Instant.readsBack.proper_required dated, Tags.sorted_of_defaulted tagged⟩

theorem page_readsBack : ReadsBack pageToJson pageOfWritten? fun p => ∀ s ∈ p.items, s.Proper :=
  Page.readsBack "Schemas" (by decide) readsBack

end SchemaSummary

namespace VersionSummary

def parts (s : VersionSummary) : List (String × Option Written) :=
  [("SchemaArn", some (.string s.arn)), ("SchemaName", some (.string s.name)),
   ("SchemaVersion", some (.string s.version)), ("Type", some (ofJson s.format.toJson))]

theorem readsBack : ReadsBack toJson ofWritten? fun _ => True := by
  refine .of_proper (fun s _ => ?_) fun _ _ _ => trivial
  have written : ofJson s.toJson = .object (present s.parts) := rfl
  obtain ⟨r, record, found⟩ := of?_parts ["SchemaArn", "SchemaName", "SchemaVersion", "Type"] written rfl (by decide)
  simp only [parts, List.forall_mem_cons] at found
  obtain ⟨arn, name, version, format, -⟩ := found
  rw [ofWritten?, record]
  simp only [required_string arn, required_string name, required_string version,
    Format.readsBack.required_part trivial format, Option.bind_eq_bind, Option.bind_some, Option.pure_def]

theorem page_readsBack : ReadsBack pageToJson pageOfWritten? fun _ => True := by
  have page := Page.readsBack "SchemaVersions" (by decide) readsBack
  exact .of_proper (fun p _ => page.written fun _ _ => trivial) fun _ _ _ => trivial

end VersionSummary

namespace Receipt

theorem ofJson_toJson (receipt : Receipt) : ofJson receipt.toJson = .object (present receipt.parts) := by
  obtain ⟨description, lastModified, arn, name, version, tags, format, createdAt⟩ := receipt
  cases description <;> rfl

theorem proper_of_ofRecord? {r : Record} {receipt : Receipt} (found : ofRecord? r = some receipt) :
    receipt.Proper := by
  simp only [ofRecord?, Option.bind_eq_bind, Option.bind_eq_some_iff, Option.pure_def, Option.some.injEq] at found
  obtain ⟨description, -, modified, dated, arn, -, name, -, version, -, tags, tagged, format, -, created, began,
    rfl⟩ := found
  exact ⟨Instant.readsBack.proper_required dated, Instant.readsBack.proper_required began,
    Tags.sorted_of_defaulted tagged⟩

theorem readsBack : ReadsBack toJson ofWritten? Proper := by
  refine .of_proper (fun receipt proper => ?_) fun w receipt found => ?_
  · obtain ⟨r, record, found⟩ := of?_parts keys receipt.ofJson_toJson rfl (by decide)
    rw [ofWritten?, record]
    exact ofRecord?_parts proper found
  · obtain ⟨r, -, found⟩ := Option.bind_eq_some_iff.mp found
    exact proper_of_ofRecord? found

end Receipt

theorem Described.readsBack : ReadsBack Described.toJson Described.ofWritten? fun d => d.receipt.Proper := by
  refine .of_proper (fun d => Described.ofWritten?_toJson) fun w d found => ?_
  simp only [Described.ofWritten?, Option.bind_eq_bind, Option.bind_eq_some_iff, Option.pure_def,
    Option.some.injEq] at found
  obtain ⟨r, -, content, -, receipt, found, rfl⟩ := found
  exact Receipt.proper_of_ofRecord? found

namespace Version

/-- A version that can be read back: its times are on the calendar and its tags in order. -/
structure Proper (v : Version) : Prop where
  created : v.createdAt.Proper
  modified : v.lastModified.Proper
  tags : v.tags.Sorted

/-- The parts of a version as they are written, `null` for a description that it has not. -/
def parts (v : Version) : List (String × Option Written) :=
  [("registry", some (.string v.registry)), ("name", some (.string v.name)), ("version", some (.string v.id.text)),
   ("schema_id", some (.string v.schemaId)), ("format", some (ofJson v.format.toJson)),
   ("description", some (ofJson ((v.description.map Json.string).getD .null))),
   ("document", some (.string v.document.text)), ("checksum", some (.string v.checksum.hex)),
   ("created_at", some (ofJson v.createdAt.toJson)), ("last_modified", some (ofJson v.lastModified.toJson)),
   ("tags", some (ofJson v.tags.toJson))]

theorem optional_null {r : Record} {key : String} {s : Option String}
    (found : r.lookup key = some (ofJson ((s.map Json.string).getD .null))) : r.optional key string? = some s := by
  rw [Record.optional, found]
  cases s <;> rfl

theorem readsBack : ReadsBack toJson ofWritten? Proper := by
  refine .of_proper (fun v proper => ?_) fun w v found => ?_
  · have written : ofJson v.toJson = .object (present v.parts) := rfl
    obtain ⟨r, record, found⟩ := of?_parts ["registry", "name", "version", "schema_id", "format", "description",
      "document", "checksum", "created_at", "last_modified", "tags"] written rfl (by decide)
    simp only [parts, List.forall_mem_cons] at found
    obtain ⟨registry, name, id, schemaId, format, description, document, checksum, created, modified, tags, -⟩ :=
      found
    rw [ofWritten?, record]
    simp only [required_string registry, required_string name, required_string id, required_string schemaId,
      Format.readsBack.required_part trivial format, optional_null description, required_string document,
      required_string checksum, Instant.readsBack.required_part proper.created created,
      Instant.readsBack.required_part proper.modified modified, Tags.readsBack.defaulted_part proper.tags tags,
      Option.bind_eq_bind, Option.bind_some, Option.pure_def]
  · obtain ⟨r, -, found⟩ := Option.bind_eq_some_iff.mp found
    obtain ⟨registry, -, found⟩ := Option.bind_eq_some_iff.mp found
    obtain ⟨name, -, found⟩ := Option.bind_eq_some_iff.mp found
    obtain ⟨id, -, found⟩ := Option.bind_eq_some_iff.mp found
    obtain ⟨schemaId, -, found⟩ := Option.bind_eq_some_iff.mp found
    obtain ⟨format, -, found⟩ := Option.bind_eq_some_iff.mp found
    obtain ⟨description, -, found⟩ := Option.bind_eq_some_iff.mp found
    obtain ⟨document, -, found⟩ := Option.bind_eq_some_iff.mp found
    obtain ⟨checksum, -, found⟩ := Option.bind_eq_some_iff.mp found
    obtain ⟨created, began, found⟩ := Option.bind_eq_some_iff.mp found
    obtain ⟨modified, dated, found⟩ := Option.bind_eq_some_iff.mp found
    obtain ⟨tags, tagged, found⟩ := Option.bind_eq_some_iff.mp found
    cases found
    exact ⟨Instant.readsBack.proper_required began, Instant.readsBack.proper_required dated,
      Tags.sorted_of_defaulted tagged⟩

end Version

namespace Envelope

/-- An envelope that can be read back: its time is on the calendar, and no object of its payload gives a key
twice. -/
structure Proper (e : Envelope) : Prop where
  time : ∀ t, e.time = some t → t.Proper
  payload : e.payload.Unrepeated

theorem readsBack : ReadsBack toJson ofWritten? Proper := by
  refine .of_proper (fun e proper => ofWritten?_toJson proper.time proper.payload) fun w e found => ?_
  obtain ⟨r, -, found⟩ := Option.bind_eq_some_iff.mp found
  obtain ⟨id, -, found⟩ := Option.bind_eq_some_iff.mp found
  obtain ⟨source, -, found⟩ := Option.bind_eq_some_iff.mp found
  obtain ⟨correlation, -, found⟩ := Option.bind_eq_some_iff.mp found
  obtain ⟨resources, -, found⟩ := Option.bind_eq_some_iff.mp found
  obtain ⟨payload, carried, found⟩ := Option.bind_eq_some_iff.mp found
  obtain ⟨time, stamped, found⟩ := Option.bind_eq_some_iff.mp found
  obtain ⟨account, -, found⟩ := Option.bind_eq_some_iff.mp found
  obtain ⟨region, -, found⟩ := Option.bind_eq_some_iff.mp found
  obtain ⟨bus, -, found⟩ := Option.bind_eq_some_iff.mp found
  cases found
  exact ⟨Instant.readsBack.proper_optional stamped, ReadsBack.value.proper_required carried⟩

end Envelope

/-- All nine kinds of records are read back as they are written, and so is what was read from a document in which
parts are absent or `null` or unknown. Nothing is asked of them but that times are on the calendar, tags in order
and the objects of a payload without a key that comes twice, as is all that is read. -/
theorem Record.all_read_back :
    ReadsBack Envelope.toJson Envelope.ofWritten? Envelope.Proper ∧
    ReadsBack Model.toJson Model.ofWritten? (fun _ => True) ∧
    ReadsBack Version.toJson Version.ofWritten? Version.Proper ∧
    ReadsBack Described.toJson Described.ofWritten? (fun d => d.receipt.Proper) ∧
    ReadsBack Receipt.toJson Receipt.ofWritten? Receipt.Proper ∧
    ReadsBack PutRequest.toJson PutRequest.ofWritten? (fun _ => True) ∧
    ReadsBack ListRequest.toJson ListRequest.ofWritten? (fun _ => True) ∧
    ReadsBack SchemaSummary.pageToJson SchemaSummary.pageOfWritten? (fun p => ∀ s ∈ p.items, s.Proper) ∧
    ReadsBack VersionSummary.pageToJson VersionSummary.pageOfWritten? fun _ => True :=
  ⟨Envelope.readsBack, Model.readsBack, Version.readsBack, Described.readsBack, Receipt.readsBack,
    PutRequest.readsBack, ListRequest.readsBack, SchemaSummary.page_readsBack, VersionSummary.page_readsBack⟩

/-- A version with a tag, of which nothing is described. -/
def sampleTagged : Version :=
  ⟨"Shop", "shop.Order", ⟨"2"⟩, "schema/Shop/shop.Order", .openApi3, none, ⟨"text"⟩, ⟨"44"⟩, ⟨0, 500⟩, ⟨59, 1500000000⟩,
    ⟨[("team", "x")]⟩⟩

/-- A request with a member of its own, `null` for one part and none for another. -/
def sampleForeign : Written :=
  .object [("Owner", .faulty), ("NextToken", .null), ("RegistryName", .string "Shop")]

theorem Record.sampleTagged_read_back :
    sampleTagged.Proper ∧ Version.ofWritten? (ofJson sampleTagged.toJson) = some sampleTagged ∧
    ListRequest.ofWritten? sampleForeign = some ⟨"Shop", none, none⟩ ∧
    ListRequest.ofWritten? (ofJson (ListRequest.toJson ⟨"Shop", none, none⟩)) = some ⟨"Shop", none, none⟩ := by
  have proper : sampleTagged.Proper := ⟨by decide, by decide, List.pairwise_singleton _ _⟩
  have found : ListRequest.ofWritten? sampleForeign = some ⟨"Shop", none, none⟩ := by decide
  obtain ⟨-, -, versions, -, -, -, listings, -, -⟩ := all_read_back
  exact ⟨proper, versions.written proper, found, (listings.again found).2⟩

end Schemata
