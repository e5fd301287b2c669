import Schemata.Proofs.Envelope

/-! Correlation texts. A text is cut at its first slash and at its last colon, and the pieces make an identity
exactly if the text is one of the two forms in which that identity is spelled. -/
namespace Schemata.Identity

open Text

/-- The forms of a correlation text: with the registry, or without any slash and in the default registry. -/
def Spells (defaultRegistry text : String) (id : Identity) : Prop :=
  '/' ∈ text.toList ∧ text = id.correlation ∨
    '/' ∉ text.toList ∧ id.registry = defaultRegistry ∧ text = id.schema ++ ":" ++ id.version

/-- The identity in a registry whose schema and version stand around the last colon. -/
def within? (registry : String) (rest : List Char) : Option Identity :=
  (splitLast? ':' rest).bind fun parts => (make registry (String.ofList parts.1) (String.ofList parts.2)).toOption

theorem within?_eq_some_iff {registry : String} {rest : List Char} {id : Identity} :
    within? registry rest = some id ↔
      id.Proper ∧ id.registry = registry ∧ rest = id.schema.toList ++ ':' :: id.version.toList := by
  constructor
  · intro found
    obtain ⟨⟨schema, version⟩, cut, made⟩ := Option.bind_eq_some_iff.mp found
    obtain ⟨rfl, -⟩ := eq_of_splitLast? cut
    cases outcome : make registry (String.ofList schema) (String.ofList version) with
    | error fault => simp [outcome, Except.toOption] at made
    | ok other =>
      obtain rfl : other = id := by simpa [outcome, Except.toOption] using made
      obtain ⟨rfl, proper⟩ := make_eq_ok_iff.mp outcome
      exact ⟨proper, rfl, by simp⟩
  · rintro ⟨proper, rfl, rfl⟩
    have made : make id.registry id.schema id.version = .ok id := make_eq_ok_iff.mpr ⟨rfl, proper⟩
    simp [within?, splitLast?_append _ proper.version, made, Except.toOption]

theorem parse?_eq_within? (defaultRegistry text : String) : parse? defaultRegistry text =
    match splitFirst? '/' text.toList with
    | some (registry, rest) => within? (String.ofList registry) rest
    | none => within? defaultRegistry text.toList := by
  cases first : splitFirst? '/' text.toList with
  | some parts => cases last : splitLast? ':' parts.2 <;> simp [parse?, within?, first, last]
  | none => cases last : splitLast? ':' text.toList <;> simp [parse?, within?, first, last]

theorem parse?_eq_some_iff {defaultRegistry text : String} {id : Identity} :
    parse? defaultRegistry text = some id ↔ id.Proper ∧ Spells defaultRegistry text id := by
  rw [parse?_eq_within?]
  cases cut : splitFirst? '/' text.toList with
  | some parts =>
    obtain ⟨registry, rest⟩ := parts
    obtain ⟨whole, free⟩ := eq_of_splitFirst? cut
    have slash : '/' ∈ text.toList := by simp [whole]
    simp only [within?_eq_some_iff, Spells, slash, not_true_eq_false, false_and, or_false, true_and]
    refine and_congr_right fun proper => ?_
    have spelled : text = id.correlation ↔ registry ++ '/' :: rest =
        id.registry.toList ++ '/' :: (id.schema.toList ++ ':' :: id.version.toList) := by
      rw [← whole, ← toList_correlation, String.toList_inj]
    rw [spelled, ← String.toList_inj, String.toList_ofList]
    constructor
    · rintro ⟨named, rfl⟩
      rw [named]
    · intro same
      -- Both registries end at the first slash.
      have first := splitFirst?_append rest free
      rwa [same, splitFirst?_append _ proper.registry, Option.some.injEq, Prod.mk.injEq, eq_comm (b := rest)] at first
  | none =>
    have free : '/' ∉ text.toList := splitFirst?_eq_none.mp cut
    simp only [within?_eq_some_iff, Spells, free, false_and, not_false_eq_true, true_and, false_or]
    have spelled : text = id.schema ++ ":" ++ id.version ↔
        text.toList = id.schema.toList ++ ':' :: id.version.toList := by
      rw [← String.toList_inj]
      simp
    rw [spelled]

theorem orMalformed_eq_ok_iff {text : String} {found : Option Identity} {id : Identity} :
    orMalformed text found = .ok id ↔ found = some id := by
  cases found <;> simp [orMalformed]

theorem decode_eq_ok_iff {defaultRegistry text : String} {id : Identity} :
    decode defaultRegistry text = .ok id ↔ id.Proper ∧ Spells defaultRegistry text id := by
  rw [decode, orMalformed_eq_ok_iff, parse?_eq_some_iff]

/-- A text either spells an identity or is carried in the failure. -/
theorem decode_cases (defaultRegistry text : String) :
    (∃ id, decode defaultRegistry text = .ok id) ∨ decode defaultRegistry text = .error (.correlation text) := by
  rw [decode]
  cases parse? defaultRegistry text with
  | some id => exact .inl ⟨id, rfl⟩
  | none => exact .inr rfl

theorem spells_correlation (defaultRegistry : String) (id : Identity) :
    Spells defaultRegistry id.correlation id := .inl ⟨by simp [toList_correlation], rfl⟩

/-- A text with a slash names its registry, so that the default one is not asked for. -/
theorem ofText_of_slash {text : String} (slash : '/' ∈ text.toList) (defaultRegistry : String) :
    ofText text = decode defaultRegistry text := by
  have same : ofText? text = parse? defaultRegistry text := by
    ext id
    rw [ofText?, if_pos slash, parse?_eq_some_iff, parse?_eq_some_iff]
    simp [Spells, slash]
  rw [ofText, decode, same]

theorem ofText_of_no_slash {text : String} (free : '/' ∉ text.toList) :
    ofText text = .error (.correlation text) := by
  rw [ofText, ofText?, if_neg free, orMalformed]

end Schemata.Identity

namespace Schemata

theorem Envelope.identity_eq_decode (e : Envelope) (defaultRegistry : String) :
    e.identity defaultRegistry = Identity.decode defaultRegistry e.correlation := by
  rw [Envelope.identity, Identity.decode]
  cases Identity.parse? defaultRegistry e.correlation <;> rfl

namespace Identity

/-- A text is decoded as an identity exactly if this could be made and the text is one of its two forms, and
every other text is carried in the failure. What is decoded has a text that is decoded alike in every default
registry. Without a default registry the same is made of a text with a slash and nothing of the others, so that
of the texts that are decoded those with a slash are the ones that need none. -/
theorem decoded_iff_spelled (defaultRegistry text : String) :
    (∀ id, decode defaultRegistry text = .ok id ↔
      make id.registry id.schema id.version = .ok id ∧ Spells defaultRegistry text id) ∧
    ((¬∃ id, make id.registry id.schema id.version = .ok id ∧ Spells defaultRegistry text id) →
      decode defaultRegistry text = .error (.correlation text)) ∧
    (∀ id, decode defaultRegistry text = .ok id → ∀ other, decode other id.correlation = .ok id) ∧
    ('/' ∈ text.toList → ofText text = decode defaultRegistry text) ∧
    ('/' ∉ text.toList → ofText text = .error (.correlation text)) ∧
    (∀ id, decode defaultRegistry text = .ok id →
      (ofText text = decode defaultRegistry text ↔ '/' ∈ text.toList)) ∧
    ∀ e : Envelope, e.correlation = text → e.identity defaultRegistry = decode defaultRegistry text := by
  have exactly (id : Identity) : decode defaultRegistry text = .ok id ↔
      make id.registry id.schema id.version = .ok id ∧ Spells defaultRegistry text id := by
    rw [decode_eq_ok_iff, make_eq_ok_iff]
    exact and_congr_left fun _ => (and_iff_right rfl).symm
  refine ⟨exactly, fun unspelled => ?_, fun id decoded other => ?_, fun slash => ofText_of_slash slash _,
    ofText_of_no_slash, fun id decoded => ⟨fun agrees => ?_, fun slash => ofText_of_slash slash _⟩, ?_⟩
  · rcases decode_cases defaultRegistry text with ⟨id, decoded⟩ | failed
    · exact absurd ⟨id, (exactly id).mp decoded⟩ unspelled
    · exact failed
  · exact decode_eq_ok_iff.mpr ⟨(decode_eq_ok_iff.mp decoded).1, spells_correlation other id⟩
  · by_contra free
    rw [ofText_of_no_slash free, decoded] at agrees
    cases agrees
  · rintro e rfl
    exact e.identity_eq_decode defaultRegistry

end Identity

end Schemata
