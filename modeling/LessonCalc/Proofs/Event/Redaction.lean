import LessonCalc.Proofs.Event.Line
import LessonCalc.Proofs.Event.Room
import LessonCalc.Project.Session

/-!
# What redaction leaves

A value is redacted if, wherever something stands in it, no secret and no long string is left there.
Redaction goes through the objects of a context and the items of its arrays, but an array that is an
item of another one is left as it is.

* `isRedacted_redactValue_iff`: a redacted value holds no secret and no long string, up to the arrays
  that are left.
* `string_of_redact`: a string of a redacted context is a mark, or the string at its place, or the front
  of that string.
* `exists_logged_context`: what is logged of an event has the context of the event.
* `isRedacted_redact_iff`: so the events of a session are logged without secrets, exactly if the arrays
  that are left hold none.
-/

namespace LessonCalc.Event

open LessonCalc.Json

/-! ## Redacted values -/

/-- A string that is short, or the front of one with the mark of a cut. -/
def IsShort (s : RawText) : Prop :=
  s.codes.length ≤ keptLength ∨
    ∃ front : List Code, front.length = keptLength ∧
      s = .ofCodes (front ++ (cutMark : RawText).codes)

/-- What may stand in a redacted value: a short string, an object without secrets, and anything that is
neither string nor object. -/
def IsHarmless : Json → Prop
  | .string s => IsShort s
  | .object entries => ∀ e ∈ entries, isSecretKey e.1 = true → e.2 = .string redactedMark
  | _ => True

/-- A value with no secret and no long string at any place. -/
def IsRedacted (v : Json) : Prop :=
  Holds IsHarmless v

theorem isRedacted_array_iff {items : List Json} :
    IsRedacted (.array items) ↔ ∀ v ∈ items, IsRedacted v :=
  holds_array_iff.trans (and_iff_right trivial)

theorem isRedacted_object_iff {entries : List (RawText × Json)} :
    IsRedacted (.object entries) ↔ ∀ e ∈ entries,
      (isSecretKey e.1 = true → e.2 = .string redactedMark) ∧ IsRedacted e.2 :=
  holds_object_iff.trans ⟨fun ⟨self, each⟩ e member => ⟨self e member, each e member⟩,
    fun each => ⟨fun e member => (each e member).1, fun e member => (each e member).2⟩⟩

theorem isRedacted_string_iff {s : RawText} : IsRedacted (.string s) ↔ IsShort s :=
  holds_scalar_iff fun _ => rfl

theorem isRedacted_mark : IsRedacted (.string redactedMark) :=
  isRedacted_string_iff.mpr (.inl (by decide))

/-- A cut string is short. -/
theorem isShort_cutLong (s : RawText) : IsShort (cutLong s) := by
  unfold cutLong
  dsimp only
  split
  · rename_i long
    exact .inr ⟨s.codes.take keptLength, List.length_take_of_le (Nat.le_of_lt long), rfl⟩
  · rename_i short
    exact .inl (Nat.le_of_not_lt short)

/-! ## What is left -/

/-- An array that redaction meets as an item of another array and leaves as it is. -/
inductive LeftAsIs (a : Json) : Json → Prop
  | here {inner items : List Json} : a = .array inner → a ∈ items → LeftAsIs a (.array items)
  | item {entries : List (RawText × Json)} {items : List Json} :
      .object entries ∈ items → LeftAsIs a (.object entries) → LeftAsIs a (.array items)
  | entry {k : RawText} {v : Json} {entries : List (RawText × Json)} :
      (k, v) ∈ entries → isSecretKey k = false → LeftAsIs a v → LeftAsIs a (.object entries)

/-- An item of an array is redacted up to the arrays that are left in it, itself perhaps. -/
theorem isRedacted_redactItem_iff {items : List Json} {v : Json} (member : v ∈ items)
    (value : IsRedacted (redactValue v) ↔ ∀ a, LeftAsIs a v → IsRedacted a) :
    IsRedacted (redactItem v) ↔
      ∀ a, (a = v ∧ ∃ inner, a = .array inner) ∨ (∃ entries, v = .object entries ∧ LeftAsIs a v) →
        IsRedacted a := by
  cases v with
  | array inner =>
      refine ⟨fun redacted a left => ?_, fun left => left _ (.inl ⟨rfl, inner, rfl⟩)⟩
      rcases left with ⟨rfl, _⟩ | ⟨entries, same, _⟩
      · exact redacted
      · cases same
  | object entries =>
      refine value.trans ⟨fun left a way => ?_, fun left a way => left a (.inr ⟨entries, rfl, way⟩)⟩
      rcases way with ⟨rfl, inner, same⟩ | ⟨_, _, way⟩
      · cases same
      · exact left a way
  | string s =>
      refine ⟨fun _ a way => ?_, fun _ => isRedacted_string_iff.mpr (isShort_cutLong s)⟩
      rcases way with ⟨rfl, inner, same⟩ | ⟨entries, same, _⟩ <;> cases same
  | _ =>
      refine ⟨fun _ a way => ?_, fun _ => (holds_scalar_iff fun _ => rfl).mpr trivial⟩
      rcases way with ⟨rfl, inner, same⟩ | ⟨entries, same, _⟩ <;> cases same

/-- A redacted value holds no secret and no long string, up to the arrays that are left. -/
theorem isRedacted_redactValue_iff (v : Json) :
    IsRedacted (redactValue v) ↔ ∀ a, LeftAsIs a v → IsRedacted a := by
  induction v using Json.induct with
  | string s =>
      exact ⟨fun _ _ left => (by cases left), fun _ => isRedacted_string_iff.mpr (isShort_cutLong s)⟩
  | array items ih =>
      rw [redactValue, redactItems_eq_map, isRedacted_array_iff, List.forall_mem_map]
      constructor
      · intro each a left
        cases left with
        | here same member =>
            exact (isRedacted_redactItem_iff member (ih a member)).mp (each a member) a
              (.inl ⟨rfl, _, same⟩)
        | item member left =>
            exact (isRedacted_redactItem_iff member (ih _ member)).mp (each _ member) a
              (.inr ⟨_, rfl, left⟩)
      · intro each v member
        refine (isRedacted_redactItem_iff member (ih v member)).mpr fun a way => each a ?_
        rcases way with ⟨rfl, inner, same⟩ | ⟨entries, rfl, left⟩
        · exact .here same member
        · exact .item member left
  | object entries ih =>
      rw [redactValue, redact_eq_map, isRedacted_object_iff, List.forall_mem_map]
      constructor
      · intro each a left
        cases left with
        | @entry k v _ member plain left =>
            have redacted := (each (k, v) member).2
            simp only [redactEntry, plain, Bool.false_eq_true, if_false] at redacted
            exact (ih (k, v) member).mp redacted a left
      · rintro each ⟨k, v⟩ member
        dsimp only [redactEntry]
        by_cases secret : isSecretKey k = true
        · rw [if_pos secret]
          exact ⟨fun _ => rfl, isRedacted_mark⟩
        · rw [if_neg secret]
          refine ⟨fun secret' => absurd secret' secret,
            (ih (k, v) member).mpr fun a left => each a ?_⟩
          exact .entry member ((Bool.not_eq_true _).mp secret) left
  | _ => exact ⟨fun _ _ left => (by cases left), fun _ => (holds_scalar_iff fun _ => rfl).mpr trivial⟩

/-! ## Where strings come from -/

/-- What redaction may have made of a value: nothing, the redacted value, or a mark. -/
def MadeOf (v w : Json) : Prop :=
  w = v ∨ w = redactValue v ∨ w = .string redactedMark

/-- Redaction keeps every value at its place. -/
theorem MadeOf.child? {v w w' : Json} {i : Nat} (made : MadeOf v w) (child : w.child? i = some w') :
    ∃ v', v.child? i = some v' ∧ MadeOf v' w' := by
  rcases made with rfl | rfl | rfl
  · exact ⟨w', child, .inl rfl⟩
  · cases v with
    | array items =>
        rw [redactValue, redactItems_eq_map, Json.child?, List.getElem?_map] at child
        obtain ⟨v', here, rfl⟩ := Option.map_eq_some_iff.mp child
        refine ⟨v', here, ?_⟩
        cases v' with
        | array inner => exact .inl rfl
        | _ => exact .inr (.inl rfl)
    | object entries =>
        rw [redactValue, redact_eq_map, Json.child?, List.getElem?_map, Option.map_map] at child
        obtain ⟨e, here, rfl⟩ := Option.map_eq_some_iff.mp child
        refine ⟨e.2, by rw [Json.child?, here]; rfl, ?_⟩
        by_cases secret : isSecretKey e.1 = true
        · exact .inr (.inr (if_pos secret))
        · exact .inr (.inl (if_neg secret))
    | _ => cases child
  · cases child

/-- A string of a redacted context is a mark, or the string at its place, or the front of that string
with the mark of a cut. -/
theorem string_of_redact {context : List (RawText × Json)} {place : List Nat} {s : RawText}
    (found : (Json.object (redact context)).at? place = some (.string s)) :
    s = redactedMark ∨ ∃ s', (Json.object context).at? place = some (.string s') ∧
      (s = s' ∨ keptLength < s'.codes.length ∧
        s = .ofCodes (s'.codes.take keptLength ++ (cutMark : RawText).codes)) := by
  have walk : ∀ place v w, MadeOf v w → w.at? place = some (.string s) →
      ∃ v', v.at? place = some v' ∧ MadeOf v' (.string s) := by
    intro place
    induction place with
    | nil =>
        rintro v w made ⟨⟩
        exact ⟨v, rfl, made⟩
    | cons i place ih =>
        intro v w made found
        obtain ⟨w', child, found⟩ := Option.bind_eq_some_iff.mp found
        obtain ⟨v', child', made'⟩ := made.child? child
        obtain ⟨v'', found', made''⟩ := ih v' w' made' found
        exact ⟨v'', by rw [Json.at?, child', Option.bind_some, found'], made''⟩
  obtain ⟨v, here, made⟩ := walk place (.object context) _ (.inr (.inl (by rw [redactValue]))) found
  rcases made with rfl | cut | mark
  · exact .inr ⟨s, here, .inl rfl⟩
  · cases v with
    | string s' =>
        refine .inr ⟨s', here, ?_⟩
        rw [redactValue, Json.string.injEq, cutLong] at cut
        split at cut
        · rename_i long
          exact .inr ⟨long, cut⟩
        · exact .inl cut
    | _ => simp only [redactValue, reduceCtorEq] at cut
  · exact .inl (Json.string.inj mark)

/-! ## What is logged -/

theorem IsRedacted.finiteOnly {v : Json} (redacted : IsRedacted v) : IsRedacted v.finiteOnly := by
  induction v using Json.induct with
  | float x =>
      rw [Json.finiteOnly]
      split <;> exact (holds_scalar_iff fun _ => rfl).mpr trivial
  | array items ih =>
      rw [finiteOnly_array, isRedacted_array_iff, List.forall_mem_map]
      exact fun v member => ih v member (isRedacted_array_iff.mp redacted v member)
  | object entries ih =>
      rw [finiteOnly_object, isRedacted_object_iff, List.forall_mem_map]
      rintro ⟨k, v⟩ member
      obtain ⟨marked, inner⟩ := isRedacted_object_iff.mp redacted (k, v) member
      refine ⟨fun secret => ?_, ih (k, v) member inner⟩
      exact congrArg Json.finiteOnly (marked secret)
  | _ => exact redacted

theorem IsRedacted.sorted {v : Json} (redacted : IsRedacted v) : IsRedacted v.sorted := by
  induction v using Json.induct with
  | array items ih =>
      rw [sorted_array, isRedacted_array_iff, List.forall_mem_map]
      exact fun v member => ih v member (isRedacted_array_iff.mp redacted v member)
  | object entries ih =>
      obtain ⟨entries', same, permuted⟩ := sorted_object entries
      rw [same, isRedacted_object_iff]
      intro e member
      obtain ⟨⟨k, v⟩, listed, rfl⟩ := List.mem_map.mp (permuted.mem_iff.mp member)
      obtain ⟨marked, inner⟩ := isRedacted_object_iff.mp redacted (k, v) listed
      refine ⟨fun secret => ?_, ih (k, v) listed inner⟩
      exact congrArg Json.sorted (marked secret)
  | _ => exact redacted

/-- What is logged of an event has its context, with sorted keys and finite numbers. -/
theorem exists_logged_context (e : Event) :
    e.logged.field? "context" = some (Json.object e.context).finiteOnly.sorted := by
  obtain ⟨entries, same, permuted⟩ := logged_eq_object e
  have keys : (Entries.keys entries).Perm
      ["ts", "schema_version", "level", "event_type", "context", "message", "error_code"] := by
    have names := permuted.map Prod.fst
    simpa [timelessFields, Entries.keys] using names
  have nodup : (Entries.keys entries).Nodup := keys.nodup_iff.mpr (by decide)
  rw [same]
  refine Entries.get?_of_mem nodup (permuted.mem_iff.mpr ?_)
  simp [timelessFields]

/-- What a session records of an event is written to its log as the event without its secrets. -/
theorem tree_record (s : Session) (e : Event) (batch : Option String) :
    (s.record e batch).tree = match s.log? with
      | none => s.tree
      | some log => (log.write s.tree e.redacted batch).2 := by
  unfold Session.record Session.withTree
  cases s.log? with
  | none => rfl
  | some log =>
      dsimp only
      rcases log.write s.tree e.redacted batch with ⟨result, tree⟩
      cases result <;> rfl

/-- A redacted context holds no secret and no long string, exactly if the arrays that redaction leaves
as they are hold none.  Its strings are marks, strings of the context or their fronts.  An event of such
a context goes to the log of a session as a line whose context is redacted too.  Where there is only some
room for calls, the redacted context is given or nothing, and nothing only if there is too little for the
calls that it takes; of such an event there is no line anyway, unless the room is small. -/
theorem isRedacted_redact_iff (context : List (RawText × Json)) :
    (IsRedacted (.object (redact context)) ↔
        ∀ a, LeftAsIs a (.object context) → IsRedacted a) ∧
      (∀ place s, (Json.object (redact context)).at? place = some (.string s) →
        s = redactedMark ∨ ∃ s', (Json.object context).at? place = some (.string s') ∧
          (s = s' ∨ keptLength < s'.codes.length ∧
            s = .ofCodes (s'.codes.take keptLength ++ (cutMark : RawText).codes))) ∧
      ((∀ a, LeftAsIs a (.object context) → IsRedacted a) →
        ∀ (s : Session) (e : Event) (batch : Option String), e.context = context →
          ((s.record e batch).tree = match s.log? with
            | none => s.tree
            | some log => (log.write s.tree e.redacted batch).2) ∧
          ∀ line, e.redacted.line = .ok line → line = e.redacted.logged.line ∧
            ∃ c, e.redacted.logged.field? "context" = some c ∧ IsRedacted c) ∧
      ∀ room, (∀ made, redactWithin room context = some made ↔
          entriesCalls context ≤ room ∧ made = redact context) ∧
        (redactWithin room context = none → 2 * nestingLimit ≤ room →
          ∀ e : Event, e.context = context → e.redacted.line = .error .nestedTooDeeply) := by
  have exact_ := isRedacted_redactValue_iff (.object context)
  rw [redactValue] at exact_
  refine ⟨exact_, fun _ _ => string_of_redact, fun left s e batch given => ?_,
    fun room => ⟨fun _ => redactWithin_eq_some_iff, fun little enough e given => ?_⟩⟩
  · refine ⟨tree_record s e batch, fun line written => ⟨?_, _, exists_logged_context _, ?_⟩⟩
    · unfold Event.line at written
      split at written
      · cases written
      · split at written
        · cases written
        · exact (Except.ok.inj written).symm
    · subst given
      exact (exact_.mpr left).finiteOnly.sorted
  · subst given
    exact line_redacted_of_redactWithin enough little

/-- A secret in an object in an array is marked, and no array is left as it is. -/
theorem isRedacted_redact_iff_login :
    let context : List (RawText × Json) :=
      [("users", .array [.object [("name", .string "ada"), ("api_key", .int 7)], .string "eve"])]
    let marked : List (RawText × Json) :=
      [("users", .array [.object [("name", .string "ada"), ("api_key", .string "[REDACTED]")],
        .string "eve"])]
    redact context = marked ∧ IsRedacted (.object (redact context)) := by
  intro context marked
  have left : ∀ a, LeftAsIs a (.object context) → IsRedacted a := by
    intro a left
    cases left with
    | entry member _ left =>
        simp only [context, List.mem_singleton, Prod.mk.injEq] at member
        obtain ⟨rfl, rfl⟩ := member
        cases left with
        | here same member => simp [same] at member
        | item member left =>
            simp only [List.mem_cons, Json.object.injEq, reduceCtorEq, List.not_mem_nil,
              or_false] at member
            subst member
            cases left with
            | entry member _ left =>
                simp only [List.mem_cons, Prod.mk.injEq, List.not_mem_nil, or_false] at member
                rcases member with ⟨rfl, rfl⟩ | ⟨rfl, rfl⟩ <;> cases left
  have users : isSecretKey "users" = false := by decide
  have name : isSecretKey "name" = false := by decide
  have key : isSecretKey "api_key" = true := by decide
  have ada : cutLong "ada" = "ada" := by decide
  have eve : cutLong "eve" = "eve" := by decide
  refine ⟨?_, (isRedacted_redact_iff context).1.mpr left⟩
  simp [context, marked, redact, redactValue, redactItems, users, name, key, ada, eve, redactedMark]

/-- A context with a secret in an object in an array in an array. -/
def innerSecret : List (RawText × Json) :=
  [("a", .array [.array [.object [("password", .string "hunter2")]]])]

/-- The secret stays. -/
theorem not_isRedacted_inner_array :
    redact innerSecret = innerSecret ∧ ¬IsRedacted (.object (redact innerSecret)) := by
  have kept : redact innerSecret = innerSecret := by
    have key : isSecretKey "a" = false := by decide
    simp [innerSecret, redact, redactValue, redactItems, key]
  refine ⟨kept, fun redacted => ?_⟩
  rw [kept] at redacted
  have secret := redacted [0, 0, 0] _ rfl ("password", .string "hunter2") List.mem_cons_self
    (by decide)
  simp [redactedMark] at secret

end LessonCalc.Event
