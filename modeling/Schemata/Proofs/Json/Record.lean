import Mathlib.Data.List.Nodup
import Schemata.Json.Record

/-! Records that are written with some of their keys: each key that is given is found again, and the record
has no other. -/
namespace Schemata.Record

open Written

/-- The members of a record that has a part under some keys, in the order of the keys. -/
def present : List (String × Option Written) → Record
  | [] => []
  | (_, none) :: rest => present rest
  | (key, some w) :: rest => (key, w) :: present rest

/-- Depth is cut off part by part. -/
theorem membersWithin_present (limit : Nat) (entries : List (String × Option Written)) :
    membersWithin limit (present entries) =
      present (entries.map fun entry => (entry.1, entry.2.map (within limit))) := by
  fun_induction present entries with
  | case1 => rfl
  | case2 key rest ih => exact ih
  | case3 key w rest ih =>
    rw [membersWithin, ih]
    rfl

variable {entries : List (String × Option Written)}

theorem keys_present (entries : List (String × Option Written)) :
    ((present entries).map (·.1)).Sublist (entries.map (·.1)) := by
  fun_induction present entries with
  | case1 => exact .slnil
  | case2 key rest ih => exact ih.cons key
  | case3 key w rest ih => exact ih.cons_cons key

theorem lookup_present_of_not_mem {key : String} (apart : key ∉ entries.map (·.1)) :
    (present entries).lookup key = none := by
  rw [List.lookup_eq_none_iff]
  intro member inside
  have listed := (keys_present entries).subset (List.mem_map_of_mem inside)
  rw [bne_iff_ne]
  rintro rfl
  exact apart listed

section
variable (unique : (entries.map (·.1)).Nodup)
include unique

theorem lookup_present {key : String} {part : Option Written} (inside : (key, part) ∈ entries) :
    (present entries).lookup key = part := by
  induction entries with
  | nil => cases inside
  | cons entry rest ih =>
    obtain ⟨alone, unique'⟩ := List.nodup_cons.mp unique
    rcases List.mem_cons.mp inside with rfl | later
    · cases part with
      | none =>
        have gone : (present rest).lookup key = none := lookup_present_of_not_mem alone
        exact gone
      | some w => exact List.lookup_cons_self
    · have apart : (key == entry.1) = false := by
        rw [beq_eq_false_iff_ne]
        rintro rfl
        exact alone (List.mem_map.mpr ⟨_, later, rfl⟩)
      have found := ih unique' later
      obtain ⟨key', _ | w⟩ := entry
      · exact found
      · rw [present, List.lookup_cons, apart]
        exact found

theorem of?_present : of? (entries.map (·.1)) (.object (present entries)) = some (present entries) := by
  have sublist := keys_present entries
  have once : onceEach (entries.map (·.1)) (present entries) = true := by
    apply List.all_eq_true.mpr
    intro key _
    have counted := List.nodup_iff_count_le_one.mp (sublist.nodup unique) key
    rw [List.count_eq_length_filter, List.filter_map, List.length_map] at counted
    exact decide_eq_true counted
  have all : (present entries).filter (·.1 ∈ entries.map (·.1)) = present entries := by
    rw [List.filter_eq_self]
    intro member inside
    exact decide_eq_true (sublist.subset (List.mem_map_of_mem inside))
  rw [of?, if_pos once, all]

end

/-- A document that has just the parts of a record, each under its key, is read as that record. -/
theorem of?_parts (keys : List String) {w : Written} (written : w = .object (present entries))
    (row : entries.map (·.1) = keys) (unique : keys.Nodup) :
    ∃ r, of? keys w = some r ∧ ∀ entry ∈ entries, r.lookup entry.1 = entry.2 := by
  subst row written
  exact ⟨present entries, of?_present unique, fun _ inside => lookup_present unique inside⟩

variable {r : Record} {key : String}

theorem required_part {read? : Written → Option α} {w : Written} {a : α} (found : r.lookup key = some w)
    (part : read? w = some a) : r.required key read? = some a := by
  rw [required, found, Option.bind_some, part]

theorem defaulted_part {read? : Written → Option α} {default : α} {w : Written} {a : α}
    (found : r.lookup key = some w) (part : read? w = some a) : r.defaulted key default read? = some a := by
  simp only [defaulted, found, part]

theorem required_string {s : String} (found : r.lookup key = some (.string s)) :
    r.required key string? = some s := by
  rw [required, found]
  rfl

theorem optional_string {s : Option String} (found : r.lookup key = s.map .string) :
    r.optional key string? = some s := by
  rw [optional, found]
  cases s <;> rfl

end Schemata.Record
