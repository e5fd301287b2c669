import Schemata.Directory.Wire
import Schemata.Proofs.Instant
import Schemata.Proofs.Json.Readable
import Schemata.Proofs.Json.Record
import Schemata.Proofs.Table

/-! The record of a described version is read back from the document that it is written as. -/
namespace Schemata

open Record Written

theorem Format.ofWritten?_toJson (f : Format) : Format.ofWritten? (ofJson f.toJson) = some f := by
  cases f <;> rfl

theorem Instant.ofWritten?_toJson {t : Instant} (proper : t.Proper) :
    Instant.ofWritten? (ofJson t.toJson) = some t := by
  simp only [Instant.ofWritten?, Instant.toJson, ofJson, string?, Option.bind_some,
    Instant.ofText?_text proper]

theorem mapM_strings (entries : List (String × String)) :
    (ofMembers (entries.map fun (k, v) => (k, .string v))).mapM
      (fun (key, w) => (string? w).map fun a => (key, a)) = some entries := by
  induction entries with
  | nil => rfl
  | cons entry rest ih => simp_all [ofMembers, ofJson, string?]

theorem Tags.ofWritten?_toJson {tags : Tags} (sorted : tags.Sorted) :
    Tags.ofWritten? (ofJson tags.toJson) = some tags := by
  simp only [Tags.ofWritten?, Tags.toJson, ofJson, entries?, mapM_strings, Option.map_some,
    sorted.ofList_entries]

theorem Tags.flat_toJson (tags : Tags) : tags.toJson.Exact ∧ (ofJson tags.toJson).nesting ≤ 1 := by
  constructor
  · apply Json.exactMembers_iff.mpr
    intro member inside
    obtain ⟨entry, -, rfl⟩ := List.mem_map.mp inside
    trivial
  · refine Nat.succ_le_succ (Json.nestingMembers_le_iff.mpr fun member inside => ?_)
    obtain ⟨entry, -, rfl⟩ := List.mem_map.mp inside
    exact Nat.le_refl 0

/-- A record that can be read back: its times are on the calendar and its tags in order. -/
structure Receipt.Proper (r : Receipt) : Prop where
  modified : r.lastModified.Proper
  created : r.createdAt.Proper
  tags : r.tags.Sorted

def Receipt.parts (r : Receipt) : List (String × Option Written) :=
  [("Description", r.description.map .string), ("LastModified", some (ofJson r.lastModified.toJson)),
   ("SchemaArn", some (.string r.arn)), ("SchemaName", some (.string r.name)),
   ("SchemaVersion", some (.string r.version)), ("Tags", some (ofJson r.tags.toJson)),
   ("Type", some (ofJson r.format.toJson)), ("VersionCreatedDate", some (ofJson r.createdAt.toJson))]

/-- A receipt is found in every record that has its parts. -/
theorem Receipt.ofRecord?_parts {receipt : Receipt} (proper : receipt.Proper) {r : Record}
    (found : ∀ entry ∈ receipt.parts, r.lookup entry.1 = entry.2) : Receipt.ofRecord? r = some receipt := by
  simp only [parts, List.forall_mem_cons] at found
  obtain ⟨description, modified, arn, name, version, tags, format, created, -⟩ := found
  have modified : r.required "LastModified" Instant.ofWritten? = some receipt.lastModified :=
    required_part modified (Instant.ofWritten?_toJson proper.modified)
  have tags : r.defaulted "Tags" Table.empty Tags.ofWritten? = some receipt.tags :=
    defaulted_part tags (Tags.ofWritten?_toJson proper.tags)
  have format : r.required "Type" Format.ofWritten? = some receipt.format :=
    required_part format (Format.ofWritten?_toJson receipt.format)
  have created : r.required "VersionCreatedDate" Instant.ofWritten? = some receipt.createdAt :=
    required_part created (Instant.ofWritten?_toJson proper.created)
  simp only [Receipt.ofRecord?, optional_string description, modified, required_string arn, required_string name,
    required_string version, tags, format, created, Option.bind_eq_bind, Option.bind_some, Option.pure_def]

namespace Described

def parts (d : Described) : List (String × Option Written) :=
  ("Content", some (.string d.content)) :: d.receipt.parts

theorem ofJson_toJson (d : Described) : ofJson d.toJson = .object (present d.parts) := by
  obtain ⟨content, ⟨description, lastModified, arn, name, version, tags, format, createdAt⟩⟩ := d
  cases description <;> rfl

/-- Writing a described version and reading the document gives it back. -/
theorem ofWritten?_toJson {d : Described} (proper : d.receipt.Proper) :
    Described.ofWritten? (ofJson d.toJson) = some d := by
  obtain ⟨r, record, found⟩ := of?_parts ("Content" :: Receipt.keys) d.ofJson_toJson rfl (by decide)
  obtain ⟨content, rest⟩ := List.forall_mem_cons.mp found
  rw [Described.ofWritten?, record]
  simp only [required_string content, Receipt.ofRecord?_parts proper rest, Option.bind_eq_bind, Option.bind_some,
    Option.pure_def]

theorem flat_members (d : Described) : ∀ member ∈ ("Content", .string d.content) :: d.receipt.members,
    member.2.Exact ∧ (ofJson member.2).nesting ≤ 1 := by
  have plain (s : String) : (Json.string s).Exact ∧ (ofJson (.string s)).nesting ≤ 1 := ⟨trivial, Nat.zero_le 1⟩
  intro member inside
  rw [Receipt.members] at inside
  simp only [List.mem_cons, List.mem_append, List.not_mem_nil, or_false] at inside
  rcases inside with rfl | described | rfl | rfl | rfl | rfl | rfl | rfl | rfl
  · exact plain _
  · cases text : d.receipt.description with
    | none =>
      rw [text] at described
      cases described
    | some s =>
      rw [text] at described
      rw [List.mem_singleton.mp described]
      exact plain s
  · exact plain _
  · exact plain _
  · exact plain _
  · exact plain _
  · exact d.receipt.tags.flat_toJson
  · exact plain _
  · exact plain _

theorem exact_toJson (d : Described) : d.toJson.Exact :=
  Json.exactMembers_iff.mpr fun member inside => (d.flat_members member inside).1

theorem nesting_toJson (d : Described) : (ofJson d.toJson).nesting ≤ 2 :=
  Nat.succ_le_succ (Json.nestingMembers_le_iff.mpr fun member inside => (d.flat_members member inside).2)

/-- The same through the text of a file. -/
theorem ofWritten?_prettyText {d : Described} (proper : d.receipt.Proper) :
    (Written.ofText? d.toJson.prettyText).bind Described.ofWritten? = some d := by
  have shallow : (ofJson d.toJson).nesting ≤ Json.nestingLimit :=
    Nat.le_trans d.nesting_toJson (by decide)
  rw [ofText?_prettyText d.exact_toJson shallow]
  exact ofWritten?_toJson proper

end Described

end Schemata
