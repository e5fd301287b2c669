import Schemata.Envelope
import Schemata.Proofs.Directory.Wire
import Schemata.Proofs.Identity
import Schemata.Proofs.Json.Readable
import Schemata.Proofs.Json.ReadsBack

/-! An envelope is read back from the document that it is written as. Through a text it is read back as far as
texts may nest: the payload stands one level deep in it. What it was encoded for is decoded from it, wherever the
identity has slashes and colons. -/
namespace Schemata.Envelope

open Record Written

def parts (e : Envelope) (payload : Written) : List (String × Option Written) :=
  [("id", e.id.map .string), ("source", some (.string e.source)),
   ("detail-type", some (.string e.correlation)),
   ("resources", some (.array (ofItems (e.resources.map .string)))), ("detail", some payload),
   ("time", e.time.map fun t => .string t.text), ("account", e.account.map .string),
   ("region", e.region.map .string), ("event-bus-name", e.bus.map .string)]

theorem ofJson_toJson (e : Envelope) : ofJson e.toJson = .object (present (e.parts (ofJson e.payload))) := by
  obtain ⟨id, source, correlation, resources, payload, time, account, region, bus⟩ := e
  cases id <;> cases time <;> cases account <;> cases region <;> cases bus <;> rfl

/-- What is beyond a depth of three or more is part of the payload. -/
theorem within_parts (e : Envelope) (payload : Written) (limit : Nat) :
    (Written.object (present (e.parts payload))).within (limit + 2) =
      .object (present (e.parts (payload.within (limit + 1)))) := by
  have names : itemsWithin limit (ofItems (e.resources.map .string)) = ofItems (e.resources.map .string) := by
    apply itemsWithin_of_nesting_le
    apply Json.nestingItems_le_iff.mpr
    intro v inside
    obtain ⟨name, -, rfl⟩ := List.mem_map.mp inside
    exact Nat.zero_le limit
  rw [within, membersWithin_present]
  simp [parts, within, names, Function.comp_def]

section
variable {e : Envelope} (proper : ∀ t, e.time = some t → t.Proper)
include proper

theorem ofWritten?_parts (payload : Written) : ofWritten? (.object (present (e.parts payload))) =
    payload.value?.map fun v => { e with payload := v } := by
  obtain ⟨r, record, found⟩ := of?_parts ["id", "source", "detail-type", "resources", "detail", "time", "account",
    "region", "event-bus-name"] (Eq.refl (Written.object (present (e.parts payload)))) rfl (by decide)
  simp only [parts, List.forall_mem_cons] at found
  obtain ⟨id, source, correlation, resources, detail, time, account, region, bus, -⟩ := found
  have resources : r.defaulted "resources" [] (list? string?) = some e.resources :=
    defaulted_part resources (ReadsBack.string.list.written fun _ _ => trivial)
  have detail : r.required "detail" value? = payload.value? := by
    rw [required, detail, Option.bind_some]
  have time : r.optional "time" Instant.ofWritten? = some e.time := by
    rw [Record.optional, time]
    cases known : e.time with
    | none => rfl
    | some t => exact congrArg (Option.map some) (Instant.ofWritten?_toJson (proper t known))
  simp only [ofWritten?, record, optional_string id, required_string source, required_string correlation, resources,
    detail, time, optional_string account, optional_string region, optional_string bus, Option.bind_eq_bind,
    Option.bind_some, Option.pure_def]
  cases payload.value? <;> rfl

theorem ofWritten?_toJson (unrepeated : e.payload.Unrepeated) : ofWritten? (ofJson e.toJson) = some e := by
  rw [ofJson_toJson, ofWritten?_parts proper, value?_ofJson unrepeated]
  rfl

omit proper in
theorem exact_toJson (exact : e.payload.Exact) : e.toJson.Exact := by
  have optional {key : String} {s : Option String} {member : String × Json}
      (inside : member ∈ Json.optional key s) : member.2.Exact := by
    cases s with
    | none => cases inside
    | some s =>
      rw [List.mem_singleton.mp inside]
      trivial
  apply Json.exactMembers_iff.mpr
  intro member inside
  simp only [List.mem_append, List.mem_cons, List.not_mem_nil, or_false] at inside
  rcases inside with ((((id | rfl | rfl | rfl | rfl) | time) | account) | region) | bus
  · exact optional id
  · trivial
  · trivial
  · apply Json.exactItems_iff.mpr
    intro v inside
    obtain ⟨name, -, rfl⟩ := List.mem_map.mp inside
    trivial
  · exact exact
  · exact optional time
  · exact optional account
  · exact optional region
  · exact optional bus

/-- Through its text an envelope is read back if its payload does not nest too deep to stand in it, and else
nothing is read. -/
theorem ofWritten?_text (plain : e.payload.Plain) : (Written.ofText? e.toJson.text).bind ofWritten? =
    if (ofJson e.payload).nesting < Json.nestingLimit then some e else none := by
  have limit : Json.nestingLimit = 125 + 2 := rfl
  rw [ofText?_text_within (exact_toJson plain.exact), ofJson_toJson, limit, within_parts, Option.bind_some,
    ofWritten?_parts proper]
  split
  · rename_i shallow
    rw [within_of_nesting_le _ (Nat.le_of_lt_succ shallow), value?_ofJson plain.unrepeated]
    rfl
  · rename_i deep
    rw [value?_within _ (Nat.lt_of_not_le fun le => deep (Nat.lt_succ_of_le le))]
    rfl

end

theorem open?_of_model {σ : Type} [Directory σ] {defaultRegistry : String} {e : Envelope} {id : Identity}
    {r r' : Registry} {s s' : σ} {model : Model} {value : Json} (identity : e.identity defaultRegistry = .ok id)
    (own : id.registry = r.name) (found : r.model id.schema (some id.version) s = (.ok model, r', s'))
    (binds : model.bind e.payload = .ok value) : e.open? defaultRegistry r s = (.ok (model, value), r', s') := by
  rw [open?, identity]
  simp only [own, ne_eq, not_true_eq_false, if_false, found, binds]

/-- Every identity that can be made is decoded from the envelopes that are encoded for it, whatever has been
filled in since, and in every default registry; its text spells it too. Such an envelope is read back from the
value that it is written as, so that it is decoded afterwards as before, and through a text as far as texts may
nest. -/
theorem encode_round_trip {registry schema version : String} {id : Identity}
    (made : Identity.make registry schema version = .ok id) (resources : List String) (source : String)
    {payload : Json} (unrepeated : payload.Unrepeated) (stamp : Option String) {time : Option Instant}
    (proper : ∀ t, time = some t → t.Proper) (account region bus : Option String) {e : Envelope}
    (encoded : e = { encode id resources source payload with id := stamp, time, account, region, bus }) :
    (∀ defaultRegistry, e.identity defaultRegistry = .ok ⟨registry, schema, version⟩) ∧
    Identity.ofText? id.correlation = some ⟨registry, schema, version⟩ ∧
    ofWritten? (.ofJson e.toJson) = some e ∧
    (∀ defaultRegistry, (ofWritten? (.ofJson e.toJson)).map (identity defaultRegistry) =
      some (.ok ⟨registry, schema, version⟩)) ∧
    (payload.Exact → (Written.ofText? e.toJson.text).bind ofWritten? =
      if (ofJson payload).nesting < Json.nestingLimit then some e else none) := by
  obtain ⟨rfl, good⟩ := Identity.make_eq_ok_iff.mp made
  have decoded (defaultRegistry : String) : e.identity defaultRegistry = .ok ⟨registry, schema, version⟩ := by
    rw [identity, encoded]
    dsimp only [encode]
    rw [Identity.parse?_correlation good]
  have carried : e.payload = payload := by rw [encoded]; rfl
  have proper' : ∀ t, e.time = some t → t.Proper := by rwa [encoded]
  have back : ofWritten? (.ofJson e.toJson) = some e := ofWritten?_toJson proper' (by rwa [carried])
  refine ⟨decoded, Identity.ofText?_correlation good, back, fun defaultRegistry => ?_, fun exact => ?_⟩
  · rw [back, Option.map_some, decoded]
  · have text := ofWritten?_text proper' (by rw [carried]; exact ⟨exact, unrepeated⟩)
    rwa [carried] at text

def samplePayload : Json := .object [("a/b:c", .array [.bool true, .null]), ("", .string "x")]

theorem encode_round_trip_separators :
    Identity.make "eu:west" "shop/a:b/" "1/2" = .ok ⟨"eu:west", "shop/a:b/", "1/2"⟩ ∧ samplePayload.Unrepeated ∧
    (⟨0, 0⟩ : Instant).Proper ∧ ∃ e : Envelope, e.correlation = "eu:west/shop/a:b/:1/2" ∧
      e.time = some ⟨0, 0⟩ ∧ e.payload = samplePayload ∧
      (∀ defaultRegistry, e.identity defaultRegistry = .ok ⟨"eu:west", "shop/a:b/", "1/2"⟩) ∧
      Identity.ofText? "eu:west/shop/a:b/:1/2" = some ⟨"eu:west", "shop/a:b/", "1/2"⟩ ∧
      ofWritten? (.ofJson e.toJson) = some e ∧
      (∀ defaultRegistry, (ofWritten? (.ofJson e.toJson)).map (identity defaultRegistry) =
        some (.ok ⟨"eu:west", "shop/a:b/", "1/2"⟩)) ∧
      (Written.ofText? e.toJson.text).bind ofWritten? = some e := by
  have made : Identity.make "eu:west" "shop/a:b/" "1/2" = .ok ⟨"eu:west", "shop/a:b/", "1/2"⟩ := by decide +kernel
  have unrepeated : samplePayload.Unrepeated := by
    simp [samplePayload, Json.Unrepeated, Json.UnrepeatedMembers, Json.UnrepeatedItems]
  have proper : ∀ t, some (⟨0, 0⟩ : Instant) = some t → t.Proper := by
    rintro t ⟨rfl⟩
    exact Instant.proper_epoch
  obtain ⟨decoded, spelled, back, decodedBack, text⟩ := encode_round_trip made ["tag"] "shop" unrepeated (some "e-1")
    proper (some "1") none (some "default") rfl
  have correlation : Identity.correlation ⟨"eu:west", "shop/a:b/", "1/2"⟩ = "eu:west/shop/a:b/:1/2" := by
    decide +kernel
  rw [correlation] at spelled
  have shallow := text (by simp [samplePayload, Json.Exact, Json.ExactMembers, Json.ExactItems])
  rw [if_pos (by decide)] at shallow
  exact ⟨made, unrepeated, Instant.proper_epoch, _, correlation, rfl, rfl, decoded, spelled, back, decodedBack,
    shallow⟩

end Schemata.Envelope
