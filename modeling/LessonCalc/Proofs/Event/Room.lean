import LessonCalc.Event.Basic
import LessonCalc.Proofs.Data.Entries
import LessonCalc.Proofs.Json.Sorted

/-!
# The room that redaction takes

Redaction goes down into the objects of a context and the items of its arrays, and needs a call for each
step down: one into a value of an object, one into an item, and one more into an object that is an item.
What stands under the key of a secret is not looked at.

* `entriesCalls`: how many calls within one another redaction takes.
* `redactWithin_eq_some_iff`: where there is room for as many, what is given is the redacted object.
* `redactWithin_redact`: a redacted object takes no more room than it took before.
* `line_redacted_of_redactWithin`: an event that takes more room than a line allows has none.
-/

namespace LessonCalc.Event

open LessonCalc.Json

/-! ## Redaction part by part -/

/-- An item of an array without secrets and long strings. -/
def redactItem : Json → Json
  | .array items => .array items
  | v => redactValue v

theorem redactItems_eq_map (items : List Json) : redactItems items = items.map redactItem := by
  induction items with
  | nil => rw [redactItems, List.map_nil]
  | cons v rest ih => cases v <;> simp only [redactItems, ih, List.map_cons, redactItem, redactValue]

/-- What stands under a key in a redacted object. -/
def redactEntry (key : RawText) (v : Json) : Json :=
  if isSecretKey key then .string redactedMark else redactValue v

theorem redact_eq_map (entries : List (RawText × Json)) :
    redact entries = entries.map fun (k, v) => (k, redactEntry k v) := by
  induction entries with
  | nil => rw [redact, List.map_nil]
  | cons e rest ih =>
      obtain ⟨k, v⟩ := e
      rw [redact, ih, List.map_cons]
      rfl

theorem redactItem_object (entries : List (RawText × Json)) :
    redactItem (.object entries) = .object (redact entries) := by
  have same : redactItem (.object entries) = redactValue (.object entries) := rfl
  rw [same, redactValue]

theorem redactEntry_of_plain {key : RawText} (plain : isSecretKey key = false) (v : Json) :
    redactEntry key v = redactValue v :=
  if_neg (Bool.eq_false_iff.mp plain)

/-! ## Calls -/

mutual

/-- How many calls within one another it takes to redact the values of an object. -/
def entriesCalls : List (RawText × Json) → Nat
  | [] => 0
  | (k, v) :: es => max (if isSecretKey k then 0 else valueCalls v) (entriesCalls es)

/-- How many calls a value of an object takes, its own included. -/
def valueCalls : Json → Nat
  | .object entries => entriesCalls entries + 1
  | .array items => itemsCalls items + 1
  | _ => 1

/-- How many calls within one another the items of an array take. -/
def itemsCalls : List Json → Nat
  | [] => 0
  | v :: vs => max (itemCalls v) (itemsCalls vs)

/-- How many calls an item of an array takes, its own included. -/
def itemCalls : Json → Nat
  | .object entries => entriesCalls entries + 2
  | _ => 1

end

theorem entriesCalls_le_iff {entries : List (RawText × Json)} {n : Nat} :
    entriesCalls entries ≤ n ↔ ∀ e ∈ entries, isSecretKey e.1 = false → valueCalls e.2 ≤ n := by
  induction entries with
  | nil => simp [entriesCalls]
  | cons e es ih =>
      obtain ⟨k, v⟩ := e
      rw [entriesCalls, Nat.max_le, ih, List.forall_mem_cons]
      refine and_congr_left fun _ => ?_
      cases isSecretKey k <;> simp

theorem itemsCalls_le_iff {items : List Json} {n : Nat} :
    itemsCalls items ≤ n ↔ ∀ v ∈ items, itemCalls v ≤ n := by
  induction items with
  | nil => simp [itemsCalls]
  | cons v vs ih => rw [itemsCalls, Nat.max_le, ih, List.forall_mem_cons]

/-! ## Enough room -/

/-- `Takes run calls a`: what is run gives a value exactly where there is room for as many calls. -/
def Takes {α : Type} (run : Nat → Option α) (calls : Nat) (a : α) : Prop :=
  ∀ room made, run room = some made ↔ calls ≤ room ∧ made = a

section Takes

variable {α β : Type} {run : Nat → Option α} {calls : Nat} {a : α}

theorem takes_some (a : α) : Takes (fun _ => some a) 0 a := by
  intro room made
  rw [Option.some.injEq, eq_comm]
  exact (and_iff_right (Nat.zero_le room)).symm

theorem Takes.map (takes : Takes run calls a) (f : α → β) :
    Takes (fun room => (run room).map f) calls (f a) := by
  intro room made
  rw [Option.map_eq_some_iff]
  constructor
  · rintro ⟨_, ran, rfl⟩
    obtain ⟨enough, rfl⟩ := (takes room _).mp ran
    exact ⟨enough, rfl⟩
  · rintro ⟨enough, rfl⟩
    exact ⟨a, (takes room a).mpr ⟨enough, rfl⟩, rfl⟩

theorem Takes.calling (takes : Takes run calls a) : Takes (calling run) (calls + 1) a := by
  intro room made
  cases room with
  | zero => exact ⟨fun none => (nomatch none), fun ⟨little, _⟩ => absurd little (Nat.not_succ_le_zero _)⟩
  | succ room => exact (takes room made).trans (and_congr_left' Nat.succ_le_succ_iff.symm)

theorem Takes.bind {more : α → Nat → Option β} {calls' : Nat} {b : β} (takes : Takes run calls a)
    (then_ : Takes (more a) calls' b) :
    Takes (fun room => (run room).bind fun a => more a room) (max calls calls') b := by
  intro room made
  rw [Option.bind_eq_some_iff, Nat.max_le]
  constructor
  · rintro ⟨_, ran, ran'⟩
    obtain ⟨enough, rfl⟩ := (takes room _).mp ran
    obtain ⟨enough', rfl⟩ := (then_ room made).mp ran'
    exact ⟨⟨enough, enough'⟩, rfl⟩
  · rintro ⟨⟨enough, enough'⟩, rfl⟩
    exact ⟨a, (takes room a).mpr ⟨enough, rfl⟩, (then_ room _).mpr ⟨enough', rfl⟩⟩

end Takes

theorem takes_redactItems {items : List Json}
    (each : ∀ v ∈ items, Takes (redactItemWithin · v) (itemCalls v) (redactItem v)) :
    Takes (redactItemsWithin · items) (itemsCalls items) (redactItems items) := by
  rw [redactItems_eq_map]
  induction items with
  | nil => exact takes_some []
  | cons v vs ih =>
      obtain ⟨first, others⟩ := List.forall_mem_cons.mp each
      exact first.bind ((ih others).map (redactItem v :: ·))

theorem takes_redact {entries : List (RawText × Json)}
    (each : ∀ e ∈ entries, Takes (redactValueWithin · e.2) (valueCalls e.2) (redactValue e.2)) :
    Takes (redactWithin · entries) (entriesCalls entries) (redact entries) := by
  rw [redact_eq_map]
  induction entries with
  | nil => exact takes_some []
  | cons e es ih =>
      obtain ⟨k, v⟩ := e
      obtain ⟨first, others⟩ := List.forall_mem_cons.mp each
      have here : Takes (fun room => if isSecretKey k then some (.string redactedMark)
          else redactValueWithin room v)
          (if isSecretKey k then 0 else valueCalls v) (redactEntry k v) := by
        unfold redactEntry
        cases isSecretKey k with
        | true => exact takes_some _
        | false => exact first
      exact here.bind ((ih others).map ((k, redactEntry k v) :: ·))

/-- A value takes its calls, in an object and in an array. -/
theorem takes_redactValue (v : Json) :
    Takes (redactValueWithin · v) (valueCalls v) (redactValue v) ∧
      Takes (redactItemWithin · v) (itemCalls v) (redactItem v) := by
  induction v using Json.induct with
  | string s =>
      have cut := (takes_some (Json.string (cutLong s))).calling
      exact ⟨cut, cut⟩
  | array items ih =>
      have inner := takes_redactItems fun v member => (ih v member).2
      exact ⟨(inner.map Json.array).calling, (takes_some _).calling⟩
  | object entries ih =>
      have inner := takes_redact fun e member => (ih e member).1
      exact ⟨(inner.map Json.object).calling, (inner.map Json.object).calling.calling⟩
  | _ => exact ⟨(takes_some _).calling, (takes_some _).calling⟩

variable {room : Nat} {entries made : List (RawText × Json)}

/-- An object is redacted exactly where there is room for its calls. -/
theorem redactWithin_eq_some_iff :
    redactWithin room entries = some made ↔ entriesCalls entries ≤ room ∧ made = redact entries :=
  takes_redact (fun e _ => (takes_redactValue e.2).1) room made

theorem redactWithin_eq_none_iff : redactWithin room entries = none ↔ room < entriesCalls entries := by
  rw [Option.eq_none_iff_forall_ne_some, ← Nat.not_le]
  simp only [ne_eq, redactWithin_eq_some_iff]
  exact ⟨fun none enough => none _ ⟨enough, rfl⟩, fun little _ fits => little fits.1⟩

/-! ## Again -/

/-- What was redacted takes no more calls than it took before. -/
theorem valueCalls_redactValue_le (v : Json) :
    valueCalls (redactValue v) ≤ valueCalls v ∧ itemCalls (redactItem v) ≤ itemCalls v := by
  induction v using Json.induct with
  | array items ih =>
      have each := itemsCalls_le_iff.mp (Nat.le_refl (itemsCalls items))
      have inner : itemsCalls (redactItems items) ≤ itemsCalls items := by
        rw [redactItems_eq_map, itemsCalls_le_iff, List.forall_mem_map]
        exact fun v member => (ih v member).2.trans (each v member)
      rw [redactValue, redactItem]
      exact ⟨Nat.succ_le_succ inner, Nat.le_refl _⟩
  | object entries ih =>
      have each := entriesCalls_le_iff.mp (Nat.le_refl (entriesCalls entries))
      have inner : entriesCalls (redact entries) ≤ entriesCalls entries := by
        rw [redact_eq_map, entriesCalls_le_iff, List.forall_mem_map]
        rintro ⟨key, v⟩ member plain
        dsimp only at plain ⊢
        rw [redactEntry_of_plain plain]
        exact (ih _ member).1.trans (each _ member plain)
      rw [redactItem_object, redactValue]
      exact ⟨Nat.succ_le_succ inner, Nat.add_le_add_right inner 2⟩
  | _ => exact ⟨Nat.le_refl _, Nat.le_refl _⟩

/-- Where an object was redacted, there is room to do it again. -/
theorem redactWithin_redact (fits : redactWithin room entries = some made) :
    redactWithin room made = some (redact made) := by
  obtain ⟨enough, rfl⟩ := redactWithin_eq_some_iff.mp fits
  have calls := (valueCalls_redactValue_le (.object entries)).1
  rw [redactValue, valueCalls, valueCalls] at calls
  exact redactWithin_eq_some_iff.mpr ⟨(Nat.le_of_succ_le_succ calls).trans enough, rfl⟩

/-! ## Lines -/

theorem entriesCalls_le_of_each
    (each : ∀ e ∈ entries, valueCalls e.2 ≤ 2 * levels (redactValue e.2)) :
    entriesCalls entries ≤ 2 * entriesLevels (redact entries) := by
  have bound := entriesLevels_le_iff.mp (Nat.le_refl (entriesLevels (redact entries)))
  rw [redact_eq_map, List.forall_mem_map, ← redact_eq_map] at bound
  refine entriesCalls_le_iff.mpr fun e member plain => ?_
  have calls := each e member
  have here : levels (redactEntry e.1 e.2) ≤ entriesLevels (redact entries) := bound e member
  rw [redactEntry_of_plain plain] at here
  omega

/-- There are at most two calls for each level of what is left. -/
theorem valueCalls_le (v : Json) :
    valueCalls v ≤ 2 * levels (redactValue v) ∧ itemCalls v ≤ 2 * levels (redactItem v) + 1 := by
  induction v using Json.induct with
  | array items ih =>
      have each := itemsLevels_le_iff.mp (Nat.le_refl (itemsLevels (redactItems items)))
      rw [redactItems_eq_map, List.forall_mem_map, ← redactItems_eq_map] at each
      have inner : itemsCalls items ≤ 2 * itemsLevels (redactItems items) + 1 := by
        refine itemsCalls_le_iff.mpr fun v member => ?_
        have bound := (ih v member).2
        have here := each v member
        omega
      have item : itemCalls (.array items) = 1 := rfl
      rw [redactValue, item, levels_array, valueCalls]
      exact ⟨by omega, by omega⟩
  | object entries ih =>
      have inner := entriesCalls_le_of_each fun e member => (ih e member).1
      rw [redactItem_object, redactValue, levels_object, valueCalls, itemCalls]
      exact ⟨by omega, by omega⟩
  | _ => exact ⟨by simp [valueCalls, redactValue, levels], by simp [itemCalls, redactItem, redactValue, levels]⟩

/-- An event whose redaction does not fit into a room of two calls for each level of a line has no line. -/
theorem line_redacted_of_redactWithin {e : Event} (enough : 2 * nestingLimit ≤ room)
    (little : redactWithin room e.context = none) : e.redacted.line = .error .nestedTooDeeply := by
  have calls := @entriesCalls_le_of_each e.context fun entry _ => (valueCalls_le entry.2).1
  rw [redactWithin_eq_none_iff] at little
  exact if_pos (show nestingLimit < entriesLevels (redact e.context) by omega)

end LessonCalc.Event
