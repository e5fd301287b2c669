/-!
Cutting a text at a separating character, at its first or at its last occurrence.

Both cuts lose nothing: the two parts with the separator between them are the text again, and the part
before the first (after the last) occurrence is free of the separator.
-/
namespace Schemata.Text

/-- The parts before and after the first `c`, if there is one. -/
def splitFirst? (c : Char) : List Char → Option (List Char × List Char)
  | [] => none
  | x :: rest =>
    if x = c then some ([], rest)
    else (splitFirst? c rest).map fun parts => (x :: parts.1, parts.2)

/-- The parts before and after the last `c`, if there is one. -/
def splitLast? (c : Char) : List Char → Option (List Char × List Char)
  | [] => none
  | x :: rest =>
    match splitLast? c rest with
    | some parts => some (x :: parts.1, parts.2)
    | none => if x = c then some ([], rest) else none

/-- What follows `lead` in the text, if the text starts with it. -/
def dropLead? : (lead text : List Char) → Option (List Char)
  | [], text => some text
  | _ :: _, [] => none
  | x :: lead, y :: text => if x = y then dropLead? lead text else none

theorem splitFirst?_eq_none {c : Char} {s : List Char} : splitFirst? c s = none ↔ c ∉ s := by
  induction s with
  | nil => simp [splitFirst?]
  | cons x rest ih =>
    by_cases h : x = c
    · simp [splitFirst?, h]
    · simp [splitFirst?, h, ih, Ne.symm h]

theorem splitFirst?_append {c : Char} {a : List Char} (b : List Char) (free : c ∉ a) :
    splitFirst? c (a ++ c :: b) = some (a, b) := by
  induction a with
  | nil => simp [splitFirst?]
  | cons x rest ih =>
    have hx : x ≠ c := fun e => free (by simp [e])
    have hr : c ∉ rest := fun m => free (by simp [m])
    simp [splitFirst?, hx, ih hr]

theorem eq_of_splitFirst? {c : Char} {s a b : List Char} (h : splitFirst? c s = some (a, b)) :
    s = a ++ c :: b ∧ c ∉ a := by
  induction s generalizing a b with
  | nil => simp [splitFirst?] at h
  | cons x rest ih =>
    by_cases hx : x = c
    · simp [splitFirst?, hx] at h
      obtain ⟨rfl, rfl⟩ := h
      simp [hx]
    · simp only [splitFirst?, hx, if_false, Option.map_eq_some_iff] at h
      obtain ⟨⟨p, q⟩, hp, he⟩ := h
      obtain ⟨rfl, rfl⟩ := Prod.mk.inj he
      obtain ⟨rfl, free⟩ := ih hp
      simp [free, Ne.symm hx]

theorem splitLast?_eq_none {c : Char} {s : List Char} : splitLast? c s = none ↔ c ∉ s := by
  induction s with
  | nil => simp [splitLast?]
  | cons x rest ih =>
    cases hr : splitLast? c rest with
    | some parts =>
      have : c ∈ rest := Classical.byContradiction fun n => by simp [ih.2 n] at hr
      simp [splitLast?, hr, this]
    | none =>
      have : c ∉ rest := ih.1 hr
      by_cases h : x = c
      · simp [splitLast?, hr, h]
      · simp [splitLast?, hr, h, this, Ne.symm h]

theorem splitLast?_append {c : Char} (a : List Char) {b : List Char} (free : c ∉ b) :
    splitLast? c (a ++ c :: b) = some (a, b) := by
  induction a with
  | nil => simp [splitLast?, splitLast?_eq_none.2 free]
  | cons x rest ih => simp [splitLast?, ih]

theorem eq_of_splitLast? {c : Char} {s a b : List Char} (h : splitLast? c s = some (a, b)) :
    s = a ++ c :: b ∧ c ∉ b := by
  induction s generalizing a b with
  | nil => simp [splitLast?] at h
  | cons x rest ih =>
    cases hr : splitLast? c rest with
    | some parts =>
      obtain ⟨p, q⟩ := parts
      simp only [splitLast?, hr, Option.some.injEq, Prod.mk.injEq] at h
      obtain ⟨rfl, rfl⟩ := h
      obtain ⟨rfl, free⟩ := ih hr
      simp [free]
    | none =>
      by_cases hx : x = c
      · simp only [splitLast?, hr, hx, if_true, Option.some.injEq, Prod.mk.injEq] at h
        obtain ⟨rfl, rfl⟩ := h
        simpa [hx] using splitLast?_eq_none.1 hr
      · simp [splitLast?, hr, hx] at h

theorem dropLead?_eq_some {lead text rest : List Char} :
    dropLead? lead text = some rest ↔ text = lead ++ rest := by
  induction lead generalizing text with
  | nil => simp [dropLead?]
  | cons x lead ih =>
    cases text with
    | nil => simp [dropLead?]
    | cons y text =>
      by_cases h : x = y
      · simp [dropLead?, h, ih]
      · simp [dropLead?, h, Ne.symm h]

end Schemata.Text
