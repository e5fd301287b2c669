import Schemata.Proofs.Json.Members
import Schemata.Proofs.Json.Record

/-! Kinds of values that are read back from the documents that they are written as, and the parts of records
that are read so. -/
namespace Schemata

open Record Written

/-- Values are read back as they are written: each one that is proper is read from what it is written as, and what
is read from any document, however that was written, is proper and the same when it is written and read again. -/
structure ReadsBack (write : α → Json) (read? : Written → Option α) (Proper : α → Prop) : Prop where
  written : ∀ {a}, Proper a → read? (ofJson (write a)) = some a
  again : ∀ {w a}, read? w = some a → Proper a ∧ read? (ofJson (write a)) = some a

namespace ReadsBack

theorem string : ReadsBack .string string? fun _ => True := ⟨fun _ => rfl, fun _ => ⟨trivial, rfl⟩⟩

theorem word : ReadsBack .ofWord word? fun _ => True := by
  have written (n : UInt64) : word? (ofJson (.ofWord n)) = some n := by
    have positive : (0 : Int) ≤ n.toNat := Int.natCast_nonneg _
    simp only [Json.ofWord, ofJson, word?, Json.word?, if_pos positive, Int.toNat_natCast, UInt64.ofNat_toNat]
  exact ⟨fun _ => written _, fun _ => ⟨trivial, written _⟩⟩

/-- A value that is read gives no key twice in an object. -/
theorem value : ReadsBack id value? Json.Unrepeated :=
  ⟨value?_ofJson, fun found => ⟨unrepeated_of_value? found, value?_ofJson (unrepeated_of_value? found)⟩⟩

variable {write : α → Json} {read? : Written → Option α} {Proper : α → Prop}

/-- It is enough that what is read is proper. -/
theorem of_proper (written : ∀ a, Proper a → read? (ofJson (write a)) = some a)
    (proper : ∀ w a, read? w = some a → Proper a) : ReadsBack write read? Proper :=
  ⟨written _, fun found => ⟨proper _ _ found, written _ (proper _ _ found)⟩⟩

section
variable (item : ReadsBack write read? Proper)
include item

theorem list : ReadsBack (fun items => .array (items.map write)) (list? read?) fun items => ∀ a ∈ items, Proper a := by
  refine of_proper (fun items proper => ?_) fun w items found => ?_
  · rw [ofJson, list?]
    induction items with
    | nil => rfl
    | cons a rest ih =>
      obtain ⟨here, later⟩ := List.forall_mem_cons.mp proper
      simp only [List.map_cons, ofItems, List.mapM_cons, item.written here, ih later, Option.bind_eq_bind,
        Option.bind_some, Option.pure_def]
  · cases w with
    | array parts =>
      induction parts generalizing items with
      | nil =>
        cases found
        exact List.forall_mem_nil _
      | cons part rest ih =>
        rw [list?, List.mapM_cons] at found
        obtain ⟨a, here, found⟩ := Option.bind_eq_some_iff.mp found
        obtain ⟨more, later, found⟩ := Option.bind_eq_some_iff.mp found
        cases found
        exact List.forall_mem_cons.mpr ⟨(item.again here).1, ih more later⟩
    | _ => cases found

variable {r : Record} {key : String} {a : α}

theorem required_part (proper : Proper a) (found : r.lookup key = some (ofJson (write a))) :
    r.required key read? = some a := Record.required_part found (item.written proper)

theorem defaulted_part {default : α} (proper : Proper a) (found : r.lookup key = some (ofJson (write a))) :
    r.defaulted key default read? = some a := Record.defaulted_part found (item.written proper)

theorem proper_required (found : r.required key read? = some a) : Proper a := by
  obtain ⟨w, -, part⟩ := Option.bind_eq_some_iff.mp found
  exact (item.again part).1

theorem proper_optional {a : Option α} (found : r.optional key read? = some a) : ∀ b, a = some b → Proper b := by
  rintro b rfl
  unfold Record.optional at found
  split at found
  · cases found
  · cases found
  · rename_i w none null there
    obtain ⟨c, part, same⟩ := Option.map_eq_some_iff.mp found
    cases same
    exact (item.again part).1

theorem proper_defaulted {default : α} (plain : Proper default) (found : r.defaulted key default read? = some a) :
    Proper a := by
  unfold defaulted at found
  split at found
  · cases found
    exact plain
  · exact (item.again found).1

end

end ReadsBack

end Schemata
