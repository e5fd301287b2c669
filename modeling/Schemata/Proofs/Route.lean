import Schemata.FileTree.Route
import Mathlib.Data.String.Basic

/-! Written paths. A name without a slash that is no point and no pair of points, put behind a written path, is one
more step of its route, and that step leads to what has this name in the folder. -/
namespace Schemata.FileTree

open String

theorem splitOnAux_slash (l m r : List Char) (parts : List String) :
    splitOnAux (ofList (l ++ m ++ r)) "/" ⟨utf8Len l⟩ ⟨utf8Len l + utf8Len m⟩ 0 parts =
      parts.reverse ++ (List.splitOnPPrepend (· == '/') r m.reverse).map ofList := by
  -- By induction on what is left, where the part since the last slash has been read.
  induction r generalizing l m parts with
  | nil =>
    have ends := atEnd_of_valid (l ++ m) []
    have part := extract_of_valid l m []
    rw [utf8Len_append] at ends
    rw [splitOnAux, if_pos (ends.mpr rfl), part]
    simp
  | cons c r ih =>
    have inside := atEnd_of_valid (l ++ m) (c :: r)
    have here := get_of_valid (l ++ m) (c :: r)
    have next := next_of_valid (l ++ m) c r
    have part := extract_of_valid l m (c :: r)
    rw [utf8Len_append] at inside here next
    have slash : Pos.Raw.get "/" 0 = '/' := by decide
    rw [splitOnAux, if_neg fun ends => List.cons_ne_nil _ _ (inside.mp ends), here, slash, List.headD_cons, next]
    by_cases same : c = '/'
    · subst same
      have onward := ih (l ++ m ++ ['/']) [] (ofList m :: parts)
      have size : Char.utf8Size '/' = 1 := by decide
      have after : Pos.Raw.next "/" 0 = ⟨1⟩ := by decide
      have ended : Pos.Raw.atEnd "/" ⟨1⟩ = true := by decide
      have back : (⟨utf8Len l + utf8Len m + 1⟩ : Pos.Raw).unoffsetBy ⟨1⟩ = ⟨utf8Len l + utf8Len m⟩ := rfl
      simp only [List.append_assoc, List.singleton_append, utf8Len_append, utf8Len_cons, utf8Len_nil, size,
        Nat.add_zero, Nat.zero_add, ← Nat.add_assoc] at onward
      rw [if_pos (by rfl), after, if_pos ended, size, back, part, List.splitOnPPrepend_cons_pos (by rfl)]
      rw [List.append_assoc]
      simpa using onward
    · have onward := ih l (m ++ [c]) parts
      have back : (⟨utf8Len l + utf8Len m⟩ : Pos.Raw).unoffsetBy 0 = ⟨utf8Len l + utf8Len m⟩ := rfl
      simp only [List.append_assoc, List.singleton_append, utf8Len_append, utf8Len_cons, utf8Len_nil, Nat.zero_add,
        ← Nat.add_assoc] at onward
      rw [if_neg (by simpa using same), back, next, List.splitOnPPrepend_cons_neg (by simpa using same)]
      simpa only [List.append_assoc, List.reverse_append, List.reverse_singleton, List.singleton_append] using onward

theorem splitOn_slash (s : String) : s.splitOn "/" = (s.toList.splitOn '/').map ofList := by
  have all := splitOnAux_slash [] [] s.toList []
  rw [List.nil_append, List.nil_append, ofList_toList] at all
  exact all

/-- A name of something in a folder, as it can stand in a written path. -/
structure Plain (name : String) : Prop where
  nonempty : name ≠ ""
  whole : '/' ∉ name.toList
  notHere : name ≠ "."
  notAbove : name ≠ ".."

namespace Plain

variable {name : String} (plain : Plain name)
include plain

theorem step_eq (here : FilePath) : step here name = here ++ [name] := by
  have notTop : name ≠ "/" := by
    rintro rfl
    exact plain.whole (by decide)
  rw [step, if_neg notTop, if_neg plain.notHere, if_neg plain.notAbove]

end Plain

namespace Route

/-- What stands for the start of a written path. -/
def start (s : String) : Route := if s.startsWith "/" then ["/"] else if s = "." ∨ s.startsWith "./" then ["."] else []

def names (s : String) : Route := (s.splitOn "/").filter fun step => step ≠ "" && step ≠ "."

theorem ofText_eq (s : String) : ofText s = start s ++ names s := rfl

theorem names_slash (a b : String) : names (a ++ "/" ++ b) = names a ++ names b := by
  have parts : (a ++ "/" ++ b).toList.splitOn '/' = a.toList.splitOn '/' ++ b.toList.splitOn '/' := by
    simpa using List.splitOn_append_cons_self (a := '/') a.toList b.toList
  rw [names, splitOn_slash, parts, List.map_append, List.filter_append, ← splitOn_slash, ← splitOn_slash, names, names]

theorem names_empty : names "" = [] := by
  rw [names, splitOn_slash]
  rfl

theorem start_append {base : String} (some : base ≠ "") {more : String} (slash : base = "." → more.startsWith "/") :
    start (base ++ more) = start base := by
  rw [start, start]
  simp only [startsWith_string_iff, toList_append, ← toList_inj] at slash ⊢
  have nonempty : base.toList ≠ [] := by simpa using some
  obtain ⟨c, rest, chars⟩ := List.exists_cons_of_ne_nil nonempty
  rw [chars] at slash ⊢
  cases rest with
  | nil =>
    by_cases here : c = '.'
    · subst here
      have onward : ['/'] <+: more.toList := slash rfl
      simp [onward, List.cons_prefix_cons]
    · simp [here, Ne.symm here, List.cons_prefix_cons]
  | cons d rest => simp [List.cons_prefix_cons]

end Route

namespace Plain

variable {name : String} (plain : Plain name)
include plain

theorem names_eq : Route.names name = [name] := by
  have single : name.splitOn "/" = [name] := by
    rw [splitOn_slash, List.splitOn_eq_singleton plain.whole, List.map_singleton, ofList_toList]
  simp [Route.names, single, plain.nonempty, plain.notHere]

theorem not_startsWith {lead : String} (slash : '/' ∈ lead.toList) : ¬ name.startsWith lead = true := by
  rw [startsWith_string_iff]
  exact fun leads => plain.whole (leads.subset slash)

theorem ofText_eq : Route.ofText name = [name] := by
  have relative : Route.start name = [] := by
    rw [Route.start, if_neg (plain.not_startsWith (by decide)), if_neg]
    rintro (here | leads)
    · exact plain.notHere here
    · exact plain.not_startsWith (by decide) leads
  rw [Route.ofText_eq, relative, plain.names_eq, List.nil_append]

/-- Behind a written path, the name is one more step. -/
theorem ofText_join {base : String} (some : base ≠ "") :
    Route.ofText (Route.join base name) = Route.ofText base ++ [name] := by
  have relative : ¬ Route.isAbsolute name = true := plain.not_startsWith (by decide)
  rw [Route.join, if_neg relative]
  split
  · rename_i ends
    obtain ⟨above, rfl⟩ : ∃ above, base = above ++ "/" := by
      obtain ⟨above, parts⟩ := Slice.endsWith_string_iff.mp ends
      exact ⟨ofList above, by rw [← toList_inj, toList_append, toList_ofList, parts, copy_toSlice]⟩
    have onward : Route.names (above ++ "/") = Route.names above := by
      have both := Route.names_slash above ""
      rwa [append_empty, Route.names_empty, List.append_nil] at both
    have more : above ++ "/" = "." → name.startsWith "/" := fun here => by
      have last := congrArg (fun path : String => path.toList.getLast?) here
      simp at last
    rw [Route.ofText_eq, Route.ofText_eq, Route.start_append some more, Route.names_slash, plain.names_eq, onward,
      List.append_assoc]
  · rw [Route.ofText_eq, Route.ofText_eq, String.append_assoc, Route.start_append some fun _ => by simp,
      ← String.append_assoc, Route.names_slash, plain.names_eq, List.append_assoc]

end Plain

theorem follow?_concat (tree : FileTree) (here : FilePath) (route : Route) (name : String) :
    tree.follow? here (route ++ [name]) = (tree.follow? here route).bind fun place =>
      if (tree.folder? place).isSome then some (step place name) else none := by
  induction route generalizing here with
  | nil => rfl
  | cons first rest ih =>
    rw [List.cons_append, follow?, follow?]
    split
    · exact ih _
    · rfl

/-- A written path leads to this place, if anywhere. -/
def LeadsOnly (tree : FileTree) (here : FilePath) (s : String) (place : FilePath) : Prop :=
  ∀ path, tree.follow? here (Route.ofText s) = some path → path = place

namespace Plain

variable {name : String} (plain : Plain name)
include plain

theorem leadsOnly (tree : FileTree) (here : FilePath) : tree.LeadsOnly here name (here ++ [name]) := by
  intro path found
  rw [plain.ofText_eq, follow?, follow?, Option.ite_none_right_eq_some, plain.step_eq] at found
  exact (Option.some.inj found.2).symm

variable {base : String} (some : base ≠ "")
include some

theorem join_ne_empty : Route.join base name ≠ "" := by
  unfold Route.join
  split
  · exact plain.nonempty
  · split <;> simp [some]

/-- Behind a written path, a plain name leads to what has this name in the place that the path leads to. -/
theorem leadsOnly_join {tree : FileTree} {here place : FilePath} (leads : tree.LeadsOnly here base place) :
    tree.LeadsOnly here (Route.join base name) (place ++ [name]) := by
  intro path found
  rw [plain.ofText_join some, follow?_concat, Option.bind_eq_some_iff] at found
  obtain ⟨above, first, next⟩ := found
  rw [Option.ite_none_right_eq_some, plain.step_eq, leads above first] at next
  exact (Option.some.inj next.2).symm

end Plain

end Schemata.FileTree
