import Schemata.Proofs.Json.Quoting
import Schemata.Proofs.Text.Digits

/-! A printed value is read back from its text, on one line or indented, if all of its numbers are whole and
it does not nest too deep. Both printers write the same brackets, commas and strings with other blanks
between them, so they are one printer with its spacing as a parameter. -/
namespace Schemata

/-- An array takes one of the levels that it may nest. -/
theorem Written.exists_of_array_le {items : List Written} {depth : Nat}
    (nests : (Written.array items).nesting ≤ depth) : ∃ d, depth = d + 1 ∧ nestingItems items ≤ d := by
  rw [nesting] at nests
  exact ⟨depth - 1, by omega, by omega⟩

theorem Written.exists_of_object_le {members : List (String × Written)} {depth : Nat}
    (nests : (Written.object members).nesting ≤ depth) : ∃ d, depth = d + 1 ∧ nestingMembers members ≤ d := by
  rw [nesting] at nests
  exact ⟨depth - 1, by omega, by omega⟩

namespace Json

/-- The blanks of a text: before an item or a closing bracket of a level, and after a colon. -/
structure Spacing where
  gap : Nat → List Char
  colon : List Char
  gap_blank : ∀ level, ∀ c ∈ gap level, isBlank c = true
  colon_blank : ∀ c ∈ colon, isBlank c = true

def Spacing.oneLine : Spacing where
  gap _ := []
  colon := []
  gap_blank _ _ inside := absurd inside List.not_mem_nil
  colon_blank _ inside := absurd inside List.not_mem_nil

def Spacing.lines : Spacing where
  gap := newline
  colon := [' ']
  gap_blank level c inside := by
    rcases List.mem_cons.mp inside with rfl | blank
    · rfl
    · rw [(List.mem_replicate.mp blank).2]
      rfl
  colon_blank c inside := by
    rw [List.mem_singleton.mp inside]
    rfl

mutual
/-- The text of a value with the given spacing. -/
def spell (l : Spacing) (level : Nat) : Json → List Char
  | array [] => ['[', ']']
  | array (v :: rest) => '[' :: l.gap (level + 1) ++ spell l (level + 1) v ++ spellItems l level rest
  | object [] => ['{', '}']
  | object ((k, v) :: rest) =>
    '{' :: l.gap (level + 1) ++ stringText k ++ ':' :: l.colon ++ spell l (level + 1) v ++
      spellMembers l level rest
  | null => ['n', 'u', 'l', 'l']
  | bool true => ['t', 'r', 'u', 'e']
  | bool false => ['f', 'a', 'l', 's', 'e']
  | number n => numberText n
  | string s => stringText s

def spellItems (l : Spacing) (level : Nat) : List Json → List Char
  | [] => l.gap level ++ [']']
  | v :: rest => ',' :: l.gap (level + 1) ++ spell l (level + 1) v ++ spellItems l level rest

def spellMembers (l : Spacing) (level : Nat) : List (String × Json) → List Char
  | [] => l.gap level ++ ['}']
  | (k, v) :: rest =>
    ',' :: l.gap (level + 1) ++ stringText k ++ ':' :: l.colon ++ spell l (level + 1) v ++
      spellMembers l level rest
end

mutual
theorem compact_eq_spell : ∀ (v : Json) (level : Nat), v.compact = v.spell .oneLine level
  | null, _ | bool true, _ | bool false, _ | number _, _ | string _, _ => rfl
  | array [], _ | object [], _ => rfl
  | array (v :: rest), level => by
    rw [compact, spell, compact_eq_spell v (level + 1), compactItems_eq_spell rest level]
    rfl
  | object ((k, v) :: rest), level => by
    rw [compact, spell, compact_eq_spell v (level + 1), compactMembers_eq_spell rest level]
    simp [Spacing.oneLine]

theorem compactItems_eq_spell : ∀ (items : List Json) (level : Nat),
    compactItems items = spellItems .oneLine level items
  | [], _ => rfl
  | v :: rest, level => by
    rw [compactItems, spellItems, compact_eq_spell v (level + 1), compactItems_eq_spell rest level]
    rfl

theorem compactMembers_eq_spell : ∀ (members : List (String × Json)) (level : Nat),
    compactMembers members = spellMembers .oneLine level members
  | [], _ => rfl
  | (k, v) :: rest, level => by
    rw [compactMembers, spellMembers, compact_eq_spell v (level + 1), compactMembers_eq_spell rest level]
    simp [Spacing.oneLine]
end

mutual
theorem indented_eq_spell : ∀ (v : Json) (level : Nat), v.indented level = v.spell .lines level
  | null, _ | bool true, _ | bool false, _ | number _, _ | string _, _ => rfl
  | array [], _ | object [], _ => rfl
  | array (v :: rest), level => by
    rw [indented, spell, indented_eq_spell v (level + 1), indentedItems_eq_spell rest level]
    rfl
  | object ((k, v) :: rest), level => by
    rw [indented, spell, indented_eq_spell v (level + 1), indentedMembers_eq_spell rest level]
    rfl

theorem indentedItems_eq_spell : ∀ (items : List Json) (level : Nat),
    indentedItems level items = spellItems .lines level items
  | [], _ => rfl
  | v :: rest, level => by
    rw [indentedItems, spellItems, indented_eq_spell v (level + 1), indentedItems_eq_spell rest level]
    rfl

theorem indentedMembers_eq_spell : ∀ (members : List (String × Json)) (level : Nat),
    indentedMembers level members = spellMembers .lines level members
  | [], _ => rfl
  | (k, v) :: rest, level => by
    rw [indentedMembers, spellMembers, indented_eq_spell v (level + 1),
      indentedMembers_eq_spell rest level]
    rfl
end

mutual
/-- All numbers in the value are whole. -/
def Exact : Json → Prop
  | number (.double _) => False
  | array items => ExactItems items
  | object members => ExactMembers members
  | _ => True

def ExactItems : List Json → Prop
  | [] => True
  | v :: rest => Exact v ∧ ExactItems rest

def ExactMembers : List (String × Json) → Prop
  | [] => True
  | (_, v) :: rest => Exact v ∧ ExactMembers rest
end

theorem exactItems_iff {items : List Json} : ExactItems items ↔ ∀ v ∈ items, v.Exact := by
  induction items with
  | nil => simp [ExactItems]
  | cons v rest ih => simp [ExactItems, ih]

theorem exactMembers_iff {members : List (String × Json)} :
    ExactMembers members ↔ ∀ member ∈ members, member.2.Exact := by
  induction members with
  | nil => simp [ExactMembers]
  | cons entry rest ih => simp [ExactMembers, ih]

theorem skipBlank_append {blanks : List Char} (blank : ∀ c ∈ blanks, isBlank c = true) (cs : List Char) :
    skipBlank (blanks ++ cs) = skipBlank cs := List.dropWhile_append_of_pos blank

theorem skipBlank_cons {c : Char} (visible : isBlank c = false) (cs : List Char) :
    skipBlank (c :: cs) = c :: cs := List.dropWhile_cons_of_neg (by simp [visible])

/-- What may follow a number: nothing that would continue it. -/
def Ended (rest : List Char) : Prop :=
  ∀ c, rest.head? = some c → Text.isDigit c = false ∧ c ≠ '.' ∧ c ≠ 'e' ∧ c ≠ 'E'

theorem ended_nil : Ended [] := fun _ head => by cases head

theorem ended_cons {c : Char} (cs : List Char) (apart : Text.isDigit c = false ∧ c ≠ '.' ∧ c ≠ 'e' ∧ c ≠ 'E') :
    Ended (c :: cs) := fun _ head => by
  cases head
  exact apart

theorem ended_blank {blanks rest : List Char} (blank : ∀ c ∈ blanks, isBlank c = true)
    (ended : Ended rest) : Ended (blanks ++ rest) := by
  cases blanks with
  | nil => exact ended
  | cons c more =>
    have space := blank c List.mem_cons_self
    simp only [isBlank, Bool.or_eq_true, decide_eq_true_eq] at space
    apply ended_cons
    rcases space with ((rfl | rfl) | rfl) | rfl <;> decide

theorem leading_decimal (n : Nat) : Text.decimal n = ['0'] ∨
    (!(Text.decimal n).isEmpty && decide ((Text.decimal n).head? ≠ some '0')) = true := by
  obtain ⟨c, more, shape, digit, nonzero⟩ := Text.head?_decimal n
  by_cases zero : n = 0
  · subst zero
    exact .inl (by simp [Text.decimal, Text.digitChar])
  · exact .inr (by simp [shape, nonzero zero])

theorem readMagnitude_decimal (negative : Bool) (n : Nat) {rest : List Char} (ended : Ended rest) :
    readMagnitude negative (Text.decimal n ++ rest) =
      some (ofInteger? negative (Text.decimal n), rest) := by
  have stops : Text.Ends rest := fun c head => (ended c head).1
  have fraction : readFraction? rest = some (none, rest) := by
    cases rest with
    | nil => rfl
    | cons c more =>
      rw [readFraction?]
      exact fun rest' same => absurd (List.cons.inj same).1 (ended c rfl).2.1
  have exponent : readExponent? rest = some (none, rest) := by
    unfold readExponent?
    split
    · exact absurd rfl (ended 'e' rfl).2.2.1
    · exact absurd rfl (ended 'E' rfl).2.2.2
    · rfl
  have led : (decide (Text.decimal n = ['0']) ||
      (!(Text.decimal n).isEmpty && decide ((Text.decimal n).head? ≠ some '0'))) = true := by
    rcases leading_decimal n with zero | other
    · simp [zero]
    · rw [other, Bool.or_true]
  simp only [readMagnitude, Text.span_digits (Text.decimal_digits n) stops, led, fraction, exponent, guard,
    if_true, Option.bind_eq_bind, Option.pure_def, Option.bind_some]

theorem readNumber_whole (n : Whole) {rest : List Char} (ended : Ended rest) :
    readNumber (numberText (.whole n) ++ rest) = some (some (.whole n), rest) := by
  obtain ⟨value, low, high⟩ := n
  by_cases negative : value < 0
  · have size : 0 < value.natAbs ∧ value.natAbs ≤ 9223372036854775808 := by omega
    have back : -(value.natAbs : Int) = value := by omega
    have read : ofInteger? true (Text.decimal value.natAbs) = some (.whole ⟨value, low, high⟩) := by
      simp only [ofInteger?, Text.value_decimal, size, and_self, if_true, dif_pos, back]
    simp [numberText, negative, readNumber, readMagnitude_decimal true _ ended, read]
  · have size : value.natAbs < 18446744073709551616 := by omega
    have back : (value.natAbs : Int) = value := by omega
    have read : ofInteger? false (Text.decimal value.natAbs) = some (.whole ⟨value, low, high⟩) := by
      simp only [ofInteger?, Text.value_decimal, size, back, dif_pos, Bool.false_eq_true, if_false]
    obtain ⟨c, more, shape, digit, -⟩ := Text.head?_decimal value.natAbs
    have unsigned : c ≠ '-' := by
      rintro rfl
      cases digit
    have start := readMagnitude_decimal false value.natAbs ended
    rw [shape, List.cons_append] at start
    rw [numberText, if_neg negative, shape, List.cons_append, readNumber, start, ← shape, read]
    exact fun rest' same => absurd (List.cons.inj same).1 unsigned

/-- How a printed value may begin. -/
def Opens (c : Char) : Prop := isBlank c = false ∧ c ≠ ']'

theorem opens_digit {c : Char} (digit : Text.isDigit c = true) : Opens c := by
  constructor
  · rw [Bool.eq_false_iff]
    intro blank
    simp only [isBlank, Bool.or_eq_true, decide_eq_true_eq] at blank
    rcases blank with ((rfl | rfl) | rfl) | rfl <;> cases digit
  · rintro rfl
    cases digit

theorem numberText_whole (n : Whole) : ∃ c cs, numberText (.whole n) = c :: cs ∧
    (c = '-' ∨ Text.isDigit c = true) := by
  unfold numberText
  obtain ⟨c, more, shape, digit, -⟩ := Text.head?_decimal n.value.natAbs
  by_cases negative : n.value < 0
  · exact ⟨'-', Text.decimal n.value.natAbs, if_pos negative, .inl rfl⟩
  · exact ⟨c, more, by simp only [if_neg negative, shape], .inr digit⟩

theorem spell_opens (l : Spacing) (level : Nat) {v : Json} (exact : v.Exact) :
    ∃ c cs, v.spell l level = c :: cs ∧ Opens c := by
  cases v with
  | null => exact ⟨'n', _, rfl, rfl, by decide⟩
  | bool b => cases b <;> exact ⟨_, _, rfl, rfl, by decide⟩
  | string s => exact ⟨'"', _, rfl, rfl, by decide⟩
  | array items => cases items <;> exact ⟨'[', _, rfl, rfl, by decide⟩
  | object members => cases members <;> exact ⟨'{', _, rfl, rfl, by decide⟩
  | number n =>
    cases n with
    | double d => exact exact.elim
    | whole n =>
      obtain ⟨c, cs, shape, sign | digit⟩ := numberText_whole n
      · exact ⟨c, cs, shape, sign ▸ ⟨rfl, by decide⟩⟩
      · exact ⟨c, cs, shape, opens_digit digit⟩

/-- What starts with no other value's first character is read as a number. -/
theorem readValue_other (depth : Nat) {c : Char} (visible : isBlank c = false)
    (apart : c ∉ ['n', 't', 'f', '"', '[', '{']) (cs : List Char) :
    readValue depth (c :: cs) =
      (readNumber (c :: cs)).map fun found => ((found.1.map Written.number).getD .faulty, found.2) := by
  simp only [List.mem_cons, List.not_mem_nil, or_false, not_or] at apart
  rw [readValue.eq_def]
  dsimp only
  rw [skipBlank_cons visible]
  simp [apart]

theorem readValue_number (depth : Nat) (n : Whole) {rest : List Char} (ended : Ended rest) :
    readValue depth (numberText (.whole n) ++ rest) = some (.number (.whole n), rest) := by
  have read := readNumber_whole n ended
  obtain ⟨c, cs, shape, start⟩ := numberText_whole n
  have visible : isBlank c = false := by
    rcases start with rfl | digit
    · rfl
    · exact (opens_digit digit).1
  have apart : c ∉ ['n', 't', 'f', '"', '[', '{'] := by
    rcases start with rfl | digit
    · decide
    · intro inside
      simp only [List.mem_cons, List.not_mem_nil, or_false] at inside
      rcases inside with rfl | rfl | rfl | rfl | rfl | rfl <;> cases digit
  rw [shape, List.cons_append] at read ⊢
  rw [readValue_other depth visible apart, read]
  rfl

theorem readValue_lead (depth : Nat) {lead : List Char} (blank : ∀ c ∈ lead, isBlank c = true)
    (cs : List Char) : readValue depth (lead ++ cs) = readValue depth cs := by
  rw [readValue.eq_def, readValue.eq_def depth cs]
  dsimp only
  rw [skipBlank_append blank]

theorem readValue_null (depth : Nat) (rest : List Char) :
    readValue depth ('n' :: 'u' :: 'l' :: 'l' :: rest) = some (.null, rest) := by cases depth <;> rfl

theorem readValue_true (depth : Nat) (rest : List Char) :
    readValue depth ('t' :: 'r' :: 'u' :: 'e' :: rest) = some (.bool true, rest) := by cases depth <;> rfl

theorem readValue_false (depth : Nat) (rest : List Char) :
    readValue depth ('f' :: 'a' :: 'l' :: 's' :: 'e' :: rest) = some (.bool false, rest) := by cases depth <;> rfl

theorem readValue_emptyArray (depth : Nat) (rest : List Char) :
    readValue (depth + 1) ('[' :: ']' :: rest) = some (.array [], rest) := rfl

theorem readValue_emptyObject (depth : Nat) (rest : List Char) :
    readValue (depth + 1) ('{' :: '}' :: rest) = some (.object [], rest) := rfl

theorem readValue_quote (depth : Nat) (cs : List Char) : readValue depth ('"' :: cs) =
    (readString cs).map fun found => ((found.1.map Written.string).getD .faulty, found.2) := by
  cases depth <;> rfl

theorem readValue_bracket (depth : Nat) (cs : List Char) : readValue (depth + 1) ('[' :: cs) =
    match skipBlank cs with
    | ']' :: rest => some (.array [], rest)
    | rest => (readItems (readValue depth) rest.length [] rest).map fun found => (.array found.1, found.2) := rfl

theorem readValue_brace (depth : Nat) (cs : List Char) : readValue (depth + 1) ('{' :: cs) =
    match skipBlank cs with
    | '}' :: rest => some (.object [], rest)
    | rest => (readMembers (readValue depth) rest.length [] rest).map fun found =>
        (objectOf found.1, found.2) := rfl

theorem readValue_string (depth : Nat) (s : String) (rest : List Char) :
    readValue depth (stringText s ++ rest) = some (.string s, rest) := by
  have inner := readString_escaped s rest
  have shape : stringText s ++ rest = '"' :: (s.toList.flatMap escaped ++ '"' :: rest) := by
    simp [stringText]
  rw [shape, readValue_quote, inner]
  rfl

theorem readValue_array {depth : Nat} {lead cs rest : List Char} {items : List Written} {c : Char}
    {more : List Char} (blank : ∀ c ∈ lead, isBlank c = true) (shape : cs = c :: more) (opens : Opens c)
    (found : readItems (readValue depth) cs.length [] cs = some (items, rest)) :
    readValue (depth + 1) ('[' :: (lead ++ cs)) = some (.array items, rest) := by
  have start : skipBlank (lead ++ cs) = c :: more := by
    rw [skipBlank_append blank, shape, skipBlank_cons opens.1]
  rw [readValue_bracket, start]
  rw [shape] at found
  split
  · rename_i same
    exact absurd (List.cons.inj same).1 opens.2
  · rw [found]
    rfl

theorem readValue_object {depth : Nat} {lead cs rest more : List Char}
    {members : List (Option String × Written)} (blank : ∀ c ∈ lead, isBlank c = true)
    (shape : cs = '"' :: more)
    (found : readMembers (readValue depth) cs.length [] cs = some (members, rest)) :
    readValue (depth + 1) ('{' :: (lead ++ cs)) = some (objectOf members, rest) := by
  have start : skipBlank (lead ++ cs) = '"' :: more := by
    rw [skipBlank_append blank, shape, skipBlank_cons rfl]
  rw [readValue_brace, start]
  rw [shape] at found
  change (readMembers (readValue depth) ('"' :: more).length [] ('"' :: more)).map _ = _
  rw [found]
  rfl

theorem readMember_spelled {item : List Char → Option (Written × List Char)} {lead colon cs rest : List Char}
    {w : Written} (blank : ∀ c ∈ lead, isBlank c = true) (key : String)
    (found : item (colon ++ cs) = some (w, rest)) :
    readMember item (lead ++ (stringText key ++ ':' :: (colon ++ cs))) = some ((some key, w), rest) := by
  have inner := readString_escaped key (':' :: (colon ++ cs))
  have shape : stringText key ++ ':' :: (colon ++ cs) =
      '"' :: (key.toList.flatMap escaped ++ '"' :: ':' :: (colon ++ cs)) := by simp [stringText]
  rw [readMember, skipBlank_append blank, shape, skipBlank_cons rfl]
  simp only [inner, skipBlank_cons (show isBlank ':' = false from rfl), found, Option.map_some]

theorem mapM_keyed (members : List (String × Written)) :
    (members.map fun member => (some member.1, member.2)).mapM
      (fun (key, w) => key.map fun key => (key, w)) = some members := by
  rw [List.mapM_map]
  induction members with
  | nil => rfl
  | cons member rest ih => simp_all

theorem objectOf_keyed (members : List (String × Written)) :
    objectOf (members.map fun member => (some member.1, member.2)) = .object members := by
  rw [objectOf]
  simp only [mapM_keyed members]

theorem length_lt_spellItems (l : Spacing) (level : Nat) (items : List Json) :
    items.length < (spellItems l level items).length := by
  induction items with
  | nil => simp [spellItems]
  | cons v rest ih => simp only [spellItems, List.length_cons, List.length_append] at ih ⊢; omega

theorem length_lt_spellMembers (l : Spacing) (level : Nat) (members : List (String × Json)) :
    members.length < (spellMembers l level members).length := by
  induction members with
  | nil => simp [spellMembers]
  | cons member rest ih => simp only [spellMembers, List.length_cons, List.length_append] at ih ⊢; omega

theorem ended_spellItems (l : Spacing) (level : Nat) (items : List Json) (rest : List Char) :
    Ended (spellItems l level items ++ rest) := by
  cases items with
  | nil =>
    rw [spellItems, List.append_assoc]
    exact ended_blank (l.gap_blank level) (ended_cons rest (by decide))
  | cons v more => exact ended_cons _ (by decide)

theorem ended_spellMembers (l : Spacing) (level : Nat) (members : List (String × Json))
    (rest : List Char) : Ended (spellMembers l level members ++ rest) := by
  cases members with
  | nil =>
    rw [spellMembers, List.append_assoc]
    exact ended_blank (l.gap_blank level) (ended_cons rest (by decide))
  | cons member more => exact ended_cons _ (by decide)

mutual
/-- A value is read from its text, whatever follows it that does not continue it. -/
theorem readValue_spell (l : Spacing) : ∀ (v : Json), v.Exact → ∀ {depth : Nat},
    (Written.ofJson v).nesting ≤ depth → ∀ (level : Nat) {rest : List Char}, Ended rest →
    readValue depth (v.spell l level ++ rest) = some (Written.ofJson v, rest)
  | null, _, depth, _, _, rest, _ => readValue_null depth rest
  | bool true, _, depth, _, _, rest, _ => readValue_true depth rest
  | bool false, _, depth, _, _, rest, _ => readValue_false depth rest
  | number (.whole n), _, depth, _, _, rest, ended => readValue_number depth n ended
  | number (.double d), exact, _, _, _, _, _ => exact.elim
  | string s, _, depth, _, _, rest, _ => readValue_string depth s rest
  | array [], _, depth, nests, level, rest, _ => by
    obtain ⟨depth, rfl, -⟩ := Written.exists_of_array_le nests
    exact readValue_emptyArray depth rest
  | object [], _, depth, nests, level, rest, _ => by
    obtain ⟨depth, rfl, -⟩ := Written.exists_of_object_le nests
    exact readValue_emptyObject depth rest
  | array (v :: items), exact, depth, nests, level, rest, _ => by
    obtain ⟨depth, rfl, inner⟩ := Written.exists_of_array_le nests
    obtain ⟨c, more, shape, opens⟩ := spell_opens l (level + 1) (v := v) exact.1
    have enough : items.length < (spell l (level + 1) v ++ (spellItems l level items ++ rest)).length := by
      have := length_lt_spellItems l level items
      simp only [List.length_append]
      omega
    have found := readItems_spell l (v :: items) exact inner level [] nofun [] enough rest v items rfl
    have read := readValue_array (l.gap_blank (level + 1)) (by rw [shape]; rfl) opens found
    simpa [spell, Written.ofJson] using read
  | object ((key, v) :: members), exact, depth, nests, level, rest, _ => by
    obtain ⟨depth, rfl, inner⟩ := Written.exists_of_object_le nests
    have enough : members.length < (stringText key ++ ':' :: (l.colon ++ (spell l (level + 1) v ++
        (spellMembers l level members ++ rest)))).length := by
      have := length_lt_spellMembers l level members
      simp only [List.length_append, List.length_cons]
      omega
    have found := readMembers_spell l ((key, v) :: members) exact inner level [] nofun [] enough rest key v
      members rfl
    have read := readValue_object (l.gap_blank (level + 1)) (by rfl) found
    rw [List.reverse_nil, List.nil_append, objectOf_keyed] at read
    simpa [spell, Written.ofJson] using read

theorem readItems_spell (l : Spacing) : ∀ (all : List Json), ExactItems all → ∀ {depth : Nat},
    Written.nestingItems (Written.ofItems all) ≤ depth → ∀ (level : Nat) (lead : List Char),
    (∀ c ∈ lead, isBlank c = true) → ∀ (seen : List Written) {bound : Nat} (_ : all.length ≤ bound)
    (rest : List Char) (v : Json) (items : List Json), all = v :: items →
    readItems (readValue depth) bound seen
      (lead ++ (spell l (level + 1) v ++ (spellItems l level items ++ rest))) =
        some (seen.reverse ++ Written.ofItems all, rest)
  | [], _, _, _, _, _, _, _, _, _, _, _, _, shape => by cases shape
  | w :: items, exact, depth, nests, level, lead, blank, seen, bound, enough, rest, _, _, rfl => by
    obtain ⟨bound, rfl⟩ : ∃ b, bound = b + 1 := ⟨bound - 1, by simp at enough; omega⟩
    have enough' : items.length ≤ bound := by simpa using enough
    simp only [Written.ofItems, Written.nestingItems, Nat.max_le] at nests
    have first := readValue_spell l w exact.1 nests.1 (level + 1) (ended_spellItems l level items rest)
    rw [readItems, readValue_lead depth blank, first]
    match items, exact.2, nests.2, enough' with
    | [], _, _, _ =>
      have close : skipBlank (spellItems l level [] ++ rest) = ']' :: rest := by
        rw [spellItems, List.append_assoc, skipBlank_append (l.gap_blank level)]
        exact skipBlank_cons rfl rest
      simp [close, Written.ofItems]
    | v :: more, exact', nests', enough' =>
      have later := readItems_spell l (v :: more) exact' nests' level _ (l.gap_blank (level + 1))
        (Written.ofJson w :: seen) enough' rest v more rfl
      have comma : skipBlank (spellItems l level (v :: more) ++ rest) =
          ',' :: (l.gap (level + 1) ++ (spell l (level + 1) v ++ (spellItems l level more ++ rest))) := by
        simp only [spellItems, List.cons_append, List.append_assoc]
        exact skipBlank_cons rfl _
      simp only [comma, later]
      simp [Written.ofItems]

theorem readMembers_spell (l : Spacing) : ∀ (all : List (String × Json)), ExactMembers all →
    ∀ {depth : Nat}, Written.nestingMembers (Written.ofMembers all) ≤ depth → ∀ (level : Nat)
    (lead : List Char), (∀ c ∈ lead, isBlank c = true) → ∀ (seen : List (Option String × Written))
    {bound : Nat} (_ : all.length ≤ bound) (rest : List Char) (key : String) (v : Json)
    (members : List (String × Json)), all = (key, v) :: members →
    readMembers (readValue depth) bound seen (lead ++ (stringText key ++ ':' :: (l.colon ++
      (spell l (level + 1) v ++ (spellMembers l level members ++ rest))))) =
        some (seen.reverse ++ (Written.ofMembers all).map fun member => (some member.1, member.2), rest)
  | [], _, _, _, _, _, _, _, _, _, _, _, _, _, shape => by cases shape
  | (k, w) :: members, exact, depth, nests, level, lead, blank, seen, bound, enough, rest, _, _, _, rfl => by
    obtain ⟨bound, rfl⟩ : ∃ b, bound = b + 1 := ⟨bound - 1, by simp at enough; omega⟩
    have enough' : members.length ≤ bound := by simpa using enough
    simp only [Written.ofMembers, Written.nestingMembers, Nat.max_le] at nests
    have value := readValue_spell l w exact.1 nests.1 (level + 1) (ended_spellMembers l level members rest)
    rw [← readValue_lead depth l.colon_blank] at value
    have first := readMember_spelled blank k value
    rw [readMembers, first]
    match members, exact.2, nests.2, enough' with
    | [], _, _, _ =>
      have close : skipBlank (spellMembers l level [] ++ rest) = '}' :: rest := by
        rw [spellMembers, List.append_assoc, skipBlank_append (l.gap_blank level)]
        exact skipBlank_cons rfl rest
      simp [close, Written.ofMembers]
    | (key, v) :: more, exact', nests', enough' =>
      have later := readMembers_spell l ((key, v) :: more) exact' nests' level _ (l.gap_blank (level + 1))
        ((some k, Written.ofJson w) :: seen) enough' rest key v more rfl
      have comma : skipBlank (spellMembers l level ((key, v) :: more) ++ rest) =
          ',' :: (l.gap (level + 1) ++ (stringText key ++ ':' :: (l.colon ++ (spell l (level + 1) v ++
            (spellMembers l level more ++ rest))))) := by
        simp only [spellMembers, List.cons_append, List.append_assoc]
        exact skipBlank_cons rfl _
      simp only [comma, later]
      simp [Written.ofMembers]
end

mutual
theorem nesting_le_length (l : Spacing) : ∀ (v : Json) (level : Nat),
    (Written.ofJson v).nesting ≤ (v.spell l level).length
  | null, _ | bool _, _ | number _, _ | string _, _ => Nat.zero_le _
  | array [], _ | object [], _ => by simp [Written.ofJson, Written.ofItems, Written.ofMembers,
      Written.nesting, Written.nestingItems, Written.nestingMembers, spell]
  | array (v :: items), level => by
    have first := nesting_le_length l v (level + 1)
    have later := nestingItems_lt_length l items level
    simp only [Written.ofJson, Written.ofItems, Written.nesting, Written.nestingItems, spell,
      List.length_cons, List.length_append]
    omega
  | object ((k, v) :: members), level => by
    have first := nesting_le_length l v (level + 1)
    have later := nestingMembers_lt_length l members level
    simp only [Written.ofJson, Written.ofMembers, Written.nesting, Written.nestingMembers, spell,
      List.length_cons, List.length_append]
    omega

theorem nestingItems_lt_length (l : Spacing) : ∀ (items : List Json) (level : Nat),
    Written.nestingItems (Written.ofItems items) < (spellItems l level items).length
  | [], _ => by simp [Written.ofItems, Written.nestingItems, spellItems]
  | v :: items, level => by
    have first := nesting_le_length l v (level + 1)
    have later := nestingItems_lt_length l items level
    simp only [Written.ofItems, Written.nestingItems, spellItems, List.length_cons, List.length_append]
    omega

theorem nestingMembers_lt_length (l : Spacing) : ∀ (members : List (String × Json)) (level : Nat),
    Written.nestingMembers (Written.ofMembers members) < (spellMembers l level members).length
  | [], _ => by simp [Written.ofMembers, Written.nestingMembers, spellMembers]
  | (k, v) :: members, level => by
    have first := nesting_le_length l v (level + 1)
    have later := nestingMembers_lt_length l members level
    simp only [Written.ofMembers, Written.nestingMembers, spellMembers, List.length_cons,
      List.length_append]
    omega
end

end Json

namespace Written

mutual
/-- A document that does not nest deeper than the limit is left as it is. -/
theorem within_of_nesting_le : ∀ (w : Written) {limit : Nat}, w.nesting ≤ limit → w.within limit = w
  | faulty, limit, _ | null, limit, _ | bool _, limit, _ | number _, limit, _ | string _, limit, _ => by
    cases limit <;> rfl
  | array items, limit, nests => by
    obtain ⟨limit, rfl, inner⟩ := exists_of_array_le nests
    rw [within, itemsWithin_of_nesting_le items inner]
  | object members, limit, nests => by
    obtain ⟨limit, rfl, inner⟩ := exists_of_object_le nests
    rw [within, membersWithin_of_nesting_le members inner]

theorem itemsWithin_of_nesting_le : ∀ (items : List Written) {limit : Nat}, nestingItems items ≤ limit →
    itemsWithin limit items = items
  | [], _, _ => rfl
  | w :: rest, limit, nests => by
    simp only [nestingItems, Nat.max_le] at nests
    rw [itemsWithin, within_of_nesting_le w nests.1, itemsWithin_of_nesting_le rest nests.2]

theorem membersWithin_of_nesting_le : ∀ (members : List (String × Written)) {limit : Nat},
    nestingMembers members ≤ limit → membersWithin limit members = members
  | [], _, _ => rfl
  | (key, w) :: rest, limit, nests => by
    simp only [nestingMembers, Nat.max_le] at nests
    rw [membersWithin, within_of_nesting_le w nests.1, membersWithin_of_nesting_le rest nests.2]
end

mutual
/-- A document that nests deeper than the limit has no value any more. -/
theorem value?_within : ∀ (w : Written) {limit : Nat}, limit < w.nesting → (w.within limit).value? = none
  | faulty, _, deep | null, _, deep | bool _, _, deep | number _, _, deep | string _, _, deep =>
    absurd deep (Nat.not_lt_zero _)
  | array items, limit, deep => by
    cases limit with
    | zero => rfl
    | succ limit =>
      have inner : limit < nestingItems items := by simpa [nesting] using deep
      rw [within, value?, values?_itemsWithin items inner]
      rfl
  | object members, limit, deep => by
    cases limit with
    | zero => rfl
    | succ limit =>
      have inner : limit < nestingMembers members := by simpa [nesting] using deep
      rw [within, value?, memberValues?_membersWithin members inner]
      rfl

theorem values?_itemsWithin : ∀ (items : List Written) {limit : Nat}, limit < nestingItems items →
    values? (itemsWithin limit items) = none
  | [], _, deep => absurd deep (Nat.not_lt_zero _)
  | w :: rest, limit, deep => by
    have parts : limit < w.nesting ∨ limit < nestingItems rest := by
      simp only [nestingItems] at deep
      omega
    rw [itemsWithin, values?]
    rcases parts with first | later
    · rw [value?_within w first]
    · rw [values?_itemsWithin rest later]
      split <;> simp_all

theorem memberValues?_membersWithin : ∀ (members : List (String × Written)) {limit : Nat},
    limit < nestingMembers members → memberValues? (membersWithin limit members) = none
  | [], _, deep => absurd deep (Nat.not_lt_zero _)
  | (key, w) :: rest, limit, deep => by
    have parts : limit < w.nesting ∨ limit < nestingMembers rest := by
      simp only [nestingMembers] at deep
      omega
    rw [membersWithin, memberValues?]
    rcases parts with first | later
    · rw [value?_within w first]
    · rw [memberValues?_membersWithin rest later]
      split <;> simp_all
end

section
variable {v : Json} (exact : v.Exact)
include exact

theorem ofText?_spell (l : Json.Spacing) :
    ofText? (String.ofList (v.spell l 0)) = some ((ofJson v).within Json.nestingLimit) := by
  have deep : (ofJson v).nesting ≤ (String.ofList (v.spell l 0)).length := by
    rw [← String.length_toList, String.toList_ofList]
    exact Json.nesting_le_length l v 0
  have read := Json.readValue_spell l v exact deep 0 Json.ended_nil
  rw [List.append_nil] at read
  rw [ofText?, String.toList_ofList, read]
  simp [Json.skipBlank]

/-- What is read from the text of a value: the value up to the depth that a text may have. -/
theorem ofText?_text_within : ofText? v.text = some ((ofJson v).within Json.nestingLimit) := by
  rw [Json.text, Json.compact_eq_spell v 0, ofText?_spell exact]

variable (nests : (ofJson v).nesting ≤ Json.nestingLimit)
include nests

/-- A value is read back from its text on one line. -/
theorem ofText?_text : ofText? v.text = some (ofJson v) := by
  rw [ofText?_text_within exact, within_of_nesting_le _ nests]

/-- A value is read back from its indented text. -/
theorem ofText?_prettyText : ofText? v.prettyText = some (ofJson v) := by
  rw [Json.prettyText, Json.indented_eq_spell v 0, ofText?_spell exact, within_of_nesting_le _ nests]

end

end Written

end Schemata
