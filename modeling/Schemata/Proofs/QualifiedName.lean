import Schemata.Proofs.Directory.Store
import Schemata.Proofs.Registry.Separation
import Mathlib.Data.Set.Function

/-! Qualified names and their texts. The type name has no point, so a text is cut at the point between the parts of
its name, however many points the namespace has. A text with something on both sides of its last point spells one
name and any other text none; two names are never registered as one schema. -/
namespace Schemata.QualifiedName

open Text

/-- What is asked of the parts of a qualified name. -/
structure Proper (n : QualifiedName) : Prop where
  space : n.space ≠ ""
  typeName : n.typeName ≠ ""
  noPoint : '.' ∉ n.typeName.toList

theorem make_eq_ok_iff {space typeName : String} {n : QualifiedName} :
    make space typeName = .ok n ↔ n = ⟨space, typeName⟩ ∧ n.Proper := by
  unfold make
  constructor
  · intro made
    split at made
    · cases made
    · rename_i filled
      split at made
      · cases made
      · rename_i free
        cases made
        exact ⟨rfl, (filled <| .inl ·), (filled <| .inr ·), free⟩
  · rintro ⟨rfl, proper⟩
    rw [if_neg (not_or.mpr ⟨proper.space, proper.typeName⟩), if_neg proper.noPoint]

theorem toList_text (n : QualifiedName) : n.text.toList = n.space.toList ++ '.' :: n.typeName.toList := by
  simp [text]

/-- The text has a last point and something on both sides of it. -/
def Pointed (s : String) : Prop :=
  ∃ before after : List Char, s.toList = before ++ '.' :: after ∧ '.' ∉ after ∧ before ≠ [] ∧ after ≠ []

theorem pointed_iff {s : String} : Pointed s ↔ ∃ n : QualifiedName, n.Proper ∧ n.text = s := by
  constructor
  · rintro ⟨before, after, whole, free, some, more⟩
    refine ⟨⟨.ofList before, .ofList after⟩, ⟨by simpa using some, by simpa using more, by simpa using free⟩, ?_⟩
    rw [← String.toList_inj, toList_text, whole, String.toList_ofList, String.toList_ofList]
  · rintro ⟨n, proper, rfl⟩
    exact ⟨_, _, n.toList_text, proper.noPoint, by simpa using proper.space, by simpa using proper.typeName⟩

/-- A text without a point is refused as such. Any other one is cut so that no point is left in the type name, and
then only an empty part can be refused. -/
theorem parse_cases (s : String) : '.' ∉ s.toList ∧ parse s = .error (.noPoint s) ∨
    ∃ n : QualifiedName, n.text = s ∧ '.' ∉ n.typeName.toList ∧ parse s = make n.space n.typeName := by
  cases cut : splitLast? '.' s.toList with
  | none => exact .inl ⟨splitLast?_eq_none.mp cut, by rw [parse, cut]⟩
  | some parts =>
    obtain ⟨before, after⟩ := parts
    obtain ⟨whole, free⟩ := eq_of_splitLast? cut
    refine .inr ⟨⟨.ofList before, .ofList after⟩, ?_, by simpa using free, by rw [parse, cut]⟩
    rw [← String.toList_inj, toList_text, whole, String.toList_ofList, String.toList_ofList]

theorem parse_text {n : QualifiedName} (proper : n.Proper) : parse n.text = .ok n := by
  have made : make n.space n.typeName = .ok n := make_eq_ok_iff.mpr ⟨rfl, proper⟩
  rw [parse, toList_text, splitLast?_append _ proper.noPoint]
  simpa using made

theorem parse_eq_ok_iff {s : String} {n : QualifiedName} : parse s = .ok n ↔ n.Proper ∧ n.text = s := by
  constructor
  · intro parsed
    obtain ⟨-, failed⟩ | ⟨m, spelled, -, cut⟩ := parse_cases s
    · cases failed.symm.trans parsed
    · obtain ⟨rfl, proper⟩ := make_eq_ok_iff.mp (cut.symm.trans parsed)
      exact ⟨proper, spelled⟩
  · rintro ⟨proper, rfl⟩
    exact parse_text proper

theorem text_injOn : Set.InjOn text {n | n.Proper} := by
  intro a properA b properB same
  have parsed := parse_text properA
  rw [same, parse_text properB] at parsed
  exact (Except.ok.inj parsed).symm

/-- The names that can be made are in bijection with the texts that have something on both sides of their last
point: the text of a name is parsed to this name, exactly these texts are parsed, and what a text is parsed to has
this text. So different names stand for different schemas, and registering under one of them leaves what a directory
has stored for the other as it is. -/
theorem text_bijection :
    (∀ space typeName n, make space typeName = .ok n → n = ⟨space, typeName⟩ ∧ parse n.text = .ok n) ∧
    (∀ s, (∃ n, parse s = .ok n) ↔ Pointed s) ∧
    (∀ s n, parse s = .ok n → n.text = s) ∧
    Set.BijOn text {n | make n.space n.typeName = .ok n} {s | Pointed s} ∧
    ∀ a b : QualifiedName, make a.space a.typeName = .ok a → make b.space b.typeName = .ok b → a ≠ b →
      a.text ≠ b.text ∧ ∀ {σ : Type} [Directory σ] [LawfulDirectory σ] (now : Instant) (model : Model) (r : Registry)
        (s : σ), now.Proper → LawfulDirectory.Kept s → ∀ registry,
          (LawfulDirectory.catalog (r.register now a model s).2.2).shelf registry b.text =
            (LawfulDirectory.catalog s).shelf registry b.text := by
  have made (n : QualifiedName) : make n.space n.typeName = .ok n ↔ n.Proper :=
    make_eq_ok_iff.trans (and_iff_right rfl)
  refine ⟨fun space typeName n accepted => ?_, fun s => ?_, fun s n parsed => (parse_eq_ok_iff.mp parsed).2, ?_, ?_⟩
  · obtain ⟨rfl, proper⟩ := make_eq_ok_iff.mp accepted
    exact ⟨rfl, parse_text proper⟩
  · rw [pointed_iff]
    exact exists_congr fun n => parse_eq_ok_iff
  · simp only [made]
    exact ⟨fun n proper => pointed_iff.mpr ⟨n, proper, rfl⟩, text_injOn, fun s pointed => pointed_iff.mp pointed⟩
  · intro a b madeA madeB different
    have apart : a.text ≠ b.text := fun same => different (text_injOn ((made a).mp madeA) ((made b).mp madeB) same)
    refine ⟨apart, fun now model r s proper kept registry => ?_⟩
    exact (Registry.register_touches proper kept r a model).others registry b.text apart.symm

/-- Names with texts that differ by a point, and a directory in which the first one is registered. -/
def sampleTwoPoints : QualifiedName := ⟨"shop.", "Order"⟩

def sampleOnePoint : QualifiedName := ⟨"shop", "Order"⟩

def sampleShelved : Store :=
  ((Registry.new "Shop" none).register ⟨0, 0⟩ sampleTwoPoints (.named "Order") (.memory (Memory.empty 10))).2.2

theorem sampleShelved_spared : sampleOnePoint.text ≠ sampleTwoPoints.text ∧
    ((LawfulDirectory.catalog sampleShelved).shelf "Shop" sampleTwoPoints.text).keys = [⟨"1"⟩] ∧
    (LawfulDirectory.catalog ((Registry.new "Shop" none).register ⟨0, 0⟩ sampleOnePoint (.named "Order")
      sampleShelved).2.2).shelf "Shop" sampleTwoPoints.text =
        (LawfulDirectory.catalog sampleShelved).shelf "Shop" sampleTwoPoints.text := by
  obtain ⟨apart, spared⟩ := text_bijection.2.2.2.2 sampleOnePoint sampleTwoPoints (by decide) (by decide) (by decide)
  have blank : (Store.memory (Memory.empty 10)).Blank := rfl
  have kept : LawfulDirectory.Kept sampleShelved := (Registry.register_touches Instant.proper_epoch blank.kept _ _ _).kept
  exact ⟨apart, by decide +kernel, spared ⟨0, 0⟩ (.named "Order") _ _ Instant.proper_epoch kept "Shop"⟩

end Schemata.QualifiedName
