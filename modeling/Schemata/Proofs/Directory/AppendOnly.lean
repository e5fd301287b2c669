import Schemata.Proofs.Directory.Store

/-! What updating a schema does to its versions and their contents. It writes one version, under the identifier
after the greatest one, and so appends it if the greatest one is a numeral below the greatest 64-bit word. After
any other text it writes the first version, which can be there already. -/
namespace Schemata

namespace Store

def Holds (s : Store) (registry name : String) (id : VersionId) : Prop :=
  (s.shelf registry name).get? id ≠ none

/-- A directory in memory as any calls and any versions put into it have left it, or one of any files. -/
def Settled : Store → Prop
  | memory s => s.Reached
  | folders s => s.Orderly

section
variable {s s' : Store} {now : Instant} {request : PutRequest} {answer : Except DirectoryError Receipt}

theorem Settled.sorted_shelf (settled : s.Settled) (registry name : String) :
    (s.shelf registry name).Sorted := by
  cases s with
  | memory s => exact (Memory.Reached.orderly settled).sorted_shelf registry name
  | folders s => exact s.sorted_shelf registry name

theorem Settled.updated (settled : s.Settled) (proper : now.Proper)
    (updated : Directory.update now request s = (answer, s')) :
    s.shelf.Updated request answer s'.shelf := by
  cases s with
  | memory s =>
    obtain ⟨rfl, rfl⟩ := Prod.mk.inj updated
    exact (Memory.update_cases (Memory.Reached.orderly settled)).2
  | folders s =>
    obtain ⟨rfl, rfl⟩ := Prod.mk.inj updated
    exact Folders.update_cases proper settled

/-- The version with this identifier is the one that a request is for. -/
def IsAt (request : PutRequest) (version registry name : String) (id : VersionId) : Prop :=
  registry = request.registry ∧ name = request.name ∧ id = ⟨version⟩

structure Greatest (s : Store) (registry name : String) (id : VersionId) : Prop where
  holds : s.Holds registry name id
  above : ∀ other, s.Holds registry name other → other = id ∨ Key.order other id = .lt

theorem Greatest.unique {registry name : String} {id other : VersionId} (first : s.Greatest registry name id)
    (second : s.Greatest registry name other) : other = id := by
  rcases first.above other second.holds with same | before
  · exact same
  · rcases second.above id first.holds with same | after
    · exact same.symm
    · have loop := Key.lt_trans before after
      rw [Key.order_self] at loop
      cases loop

theorem Settled.greatest_of_last (settled : s.Settled) {registry name : String} {id : VersionId}
    {content : Option String} (last : (s.shelf registry name).last? = some (id, content)) :
    s.Greatest registry name id := by
  obtain ⟨found, above⟩ := (settled.sorted_shelf registry name).last?_eq_some_iff.mp last
  refine ⟨by simp [Holds, found], fun other held => ?_⟩
  obtain ⟨content, there⟩ := Option.ne_none_iff_exists'.mp held
  exact above other content there

/-- The request is answered by writing this version, and nothing else. -/
structure Writes (s : Store) (request : PutRequest) (version : String) (s' : Store) : Prop where
  holds : s'.Holds request.registry request.name ⟨version⟩
  content : s'.content request.registry request.name version = some request.content
  others : ∀ registry name id, ¬ IsAt request version registry name id →
    s'.content registry name id.text = s.content registry name id.text ∧
      (s'.Holds registry name id ↔ s.Holds registry name id)

/-- The request is answered by one version that is new and comes after all others of the schema, and whatever was
there keeps its content. -/
structure Appends (s : Store) (request : PutRequest) (version : String) (s' : Store) : Prop where
  free : ¬ s.Holds request.registry request.name ⟨version⟩
  greater : ∀ id, s.Holds request.registry request.name id → Key.order id ⟨version⟩ = .lt
  content : s'.content request.registry request.name version = some request.content
  holds_iff : ∀ registry name id,
    s'.Holds registry name id ↔ s.Holds registry name id ∨ IsAt request version registry name id
  kept : ∀ registry name id, s.Holds registry name id →
    s'.content registry name id.text = s.content registry name id.text

theorem Writes.appends_iff {version : String} {greatest : VersionId} (writes : s.Writes request version s')
    (last : s.Greatest request.registry request.name greatest) :
    s.Appends request version s' ↔ Key.order greatest ⟨version⟩ = .lt := by
  constructor
  · intro appends
    exact appends.greater greatest last.holds
  · intro after
    have greater : ∀ id, s.Holds request.registry request.name id → Key.order id ⟨version⟩ = .lt := by
      intro id held
      rcases last.above id held with rfl | before
      · exact after
      · exact Key.lt_trans before after
    have free : ¬ s.Holds request.registry request.name ⟨version⟩ := by
      intro taken
      have loop := greater _ taken
      rw [Key.order_self] at loop
      cases loop
    refine ⟨free, greater, writes.content, fun registry name id => ?_, fun registry name id held => ?_⟩
    · by_cases here : IsAt request version registry name id
      · obtain ⟨rfl, rfl, rfl⟩ := here
        exact ⟨fun _ => .inr ⟨rfl, rfl, rfl⟩, fun _ => writes.holds⟩
      · rw [(writes.others registry name id here).2, or_iff_left here]
    · refine (writes.others registry name id ?_).1
      rintro ⟨rfl, rfl, rfl⟩
      exact free held

theorem Settled.update_writes (settled : s.Settled) (proper : now.Proper)
    (updated : Directory.update now request s = (answer, s')) :
    (∀ e, answer = .error e → s'.content = s.content ∧ s'.Holds = s.Holds) ∧
    ∀ receipt, answer = .ok receipt → ∃ greatest, s.Greatest request.registry request.name greatest ∧
      receipt.version = greatest.next.text ∧ s.Writes request receipt.version s' := by
  have change := settled.updated proper updated
  generalize shelf : s'.shelf = after at change
  cases change with
  | refused ordinary =>
    refine ⟨fun e _ => ⟨by rw [content_eq, content_eq, shelf], ?_⟩, nofun⟩
    unfold Holds
    rw [shelf]
  | unchanged last same =>
    refine ⟨fun e _ => ⟨by rw [content_eq, content_eq, shelf], ?_⟩, nofun⟩
    unfold Holds
    rw [shelf]
  | @added id text receipt last differs named version =>
    refine ⟨nofun, ?_⟩
    rintro _ ⟨rfl⟩
    refine ⟨id, settled.greatest_of_last last, version, ?_, ?_, fun registry name other apart => ?_⟩
    · rw [Holds, shelf, version, Shelves.get?_put, if_pos ⟨rfl, rfl, rfl⟩]
      exact Option.some_ne_none _
    · rw [content_eq, shelf, version, Shelves.content_put, if_pos ⟨rfl, rfl, rfl⟩]
    · rw [IsAt, version] at apart
      rw [content_eq, content_eq, Holds, Holds, shelf, Shelves.get?_put, if_neg apart, Shelves.content_put, if_neg]
      · exact ⟨rfl, Iff.rfl⟩
      · rintro ⟨sameRegistry, sameName, sameVersion⟩
        exact apart ⟨sameRegistry, sameName, congrArg VersionId.mk sameVersion⟩

/-- An update that fails leaves all versions and contents as they were. One that succeeds writes one version, and
appends it if and only if the greatest one is a numeral below the greatest 64-bit word. That word itself is left
aside. After all else it writes the first version, whether that is there or not. -/
theorem update_appends_iff (settled : s.Settled) (proper : now.Proper)
    (updated : Directory.update now request s = (answer, s')) :
    (∀ e, answer = .error e → s'.content = s.content ∧ s'.Holds = s.Holds) ∧
    ∀ receipt, answer = .ok receipt → ∃ greatest, s.Greatest request.registry request.name greatest ∧
      ((greatest.isNumeric = true → greatest.number ≠ 18446744073709551615) →
        receipt.version = greatest.next.text ∧ s.Writes request receipt.version s' ∧
        (s.Appends request receipt.version s' ↔
          greatest.isNumeric = true ∧ greatest.number < 18446744073709551615) ∧
        (¬ s.Appends request receipt.version s' → receipt.version = VersionId.first.text)) := by
  obtain ⟨failed, wrote⟩ := settled.update_writes proper updated
  refine ⟨failed, fun receipt answered => ?_⟩
  obtain ⟨greatest, last, version, writes⟩ := wrote receipt answered
  refine ⟨greatest, last, fun counted => ?_⟩
  have appends : s.Appends request receipt.version s' ↔ greatest.Countable := by
    rw [writes.appends_iff last, version]
    exact greatest.before_next_iff
  refine ⟨version, writes, appends, fun replaces => ?_⟩
  rw [version, VersionId.next_of_not_word]
  intro numeric
  have large : ¬ greatest.number < 18446744073709551615 := fun small => replaces (appends.mpr ⟨numeric, small⟩)
  have apart := counted numeric
  omega

end

def sample (versions : List (String × String)) : Memory :=
  versions.foldl (fun s version => s.insertVersion ⟨0, 0⟩ "Shop" "n.Order" version.1 version.2) (.empty 10)

theorem settled_sample (versions : List (String × String)) : (memory (sample versions)).Settled := by
  suffices all : ∀ s : Memory, s.Reached → (versions.foldl (fun s version =>
      s.insertVersion ⟨0, 0⟩ "Shop" "n.Order" version.1 version.2) s).Reached from all _ (.empty 10)
  induction versions with
  | nil => exact fun s reached => reached
  | cons version rest ih => exact fun s reached => ih _ (.insertVersion _ _ _ _ _ reached)

def sampleUpdate : PutRequest := ⟨"Shop", "n.Order", "c", .jsonSchemaDraft4, none⟩

theorem update_adds_ten :
    let s := memory (sample [("07", "a"), ("9", "b")])
    let result := Directory.update ⟨0, 0⟩ sampleUpdate s
    s.Settled ∧ (⟨0, 0⟩ : Instant).Proper ∧ ∃ receipt, result.1 = .ok receipt ∧ receipt.version = "10" ∧
      s.Appends sampleUpdate "10" result.2 := by
  intro s result
  have settled : s.Settled := settled_sample _
  have proper := Instant.proper_epoch
  have version : result.1.toOption.map Receipt.version = some "10" := by decide +kernel
  have last : (s.shelf "Shop" "n.Order").last? = some (⟨"9"⟩, some "b") := by decide +kernel
  refine ⟨settled, proper, ?_⟩
  cases answered : result.1 with
  | error e => simp [answered, Except.toOption] at version
  | ok receipt =>
    have ten : receipt.version = "10" := by simpa [answered, Except.toOption] using version
    obtain ⟨greatest, nine, counted⟩ :=
      (update_appends_iff settled proper (Prod.eta result).symm).2 receipt answered
    obtain rfl := (settled.greatest_of_last last).unique nine
    obtain ⟨_, _, appends, _⟩ := counted (fun _ => by decide +kernel)
    rw [ten] at appends
    exact ⟨receipt, rfl, ten, appends.mpr (by decide +kernel)⟩

/-- The identifier after one that is no numeral is the first one, which can be taken. -/
theorem update_replaces_first : ¬ ∀ (s s' : Store) (now : Instant) (request : PutRequest) (receipt : Receipt),
    s.Settled → now.Proper →
    (∀ greatest, s.Greatest request.registry request.name greatest → greatest.isNumeric = true →
      greatest.number ≠ 18446744073709551615) →
    Directory.update now request s = (.ok receipt, s') → s.Appends request receipt.version s' := by
  intro append
  let s := memory (sample [("1", "a"), ("beta", "b")])
  let result := Directory.update ⟨0, 0⟩ sampleUpdate s
  have settled : s.Settled := settled_sample _
  have one : s.Holds "Shop" "n.Order" ⟨"1"⟩ := by
    unfold Holds
    decide +kernel
  have last : (s.shelf "Shop" "n.Order").last? = some (⟨"beta"⟩, some "b") := by decide +kernel
  have before : s.content "Shop" "n.Order" "1" = some "a" := by decide +kernel
  have after : result.2.content "Shop" "n.Order" "1" = some "c" := by decide +kernel
  have version : result.1.toOption.map Receipt.version = some "1" := by decide +kernel
  cases answered : result.1 with
  | error e => simp [answered, Except.toOption] at version
  | ok receipt =>
    have updated : Directory.update ⟨0, 0⟩ sampleUpdate s = (.ok receipt, result.2) :=
      Prod.ext answered rfl
    have textual : ∀ greatest, s.Greatest "Shop" "n.Order" greatest → greatest.isNumeric = true →
        greatest.number ≠ 18446744073709551615 := by
      intro greatest beta numeric
      obtain rfl := (settled.greatest_of_last last).unique beta
      have word : (⟨"beta"⟩ : VersionId).isNumeric = false := by decide +kernel
      rw [word] at numeric
      cases numeric
    have appends := append s result.2 ⟨0, 0⟩ sampleUpdate receipt settled Instant.proper_epoch textual updated
    have kept := appends.kept "Shop" "n.Order" ⟨"1"⟩ one
    simp [before, after] at kept

end Store

end Schemata
