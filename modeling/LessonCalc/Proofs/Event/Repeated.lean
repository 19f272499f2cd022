import LessonCalc.Proofs.Event.Memory

/-!
# Redaction again

A string that was cut is still longer than the most that is kept, and a mark stands under a key of a
secret as the secret did.  So what was redacted is redacted again, to the same.

* `redact_redact`: redaction of what was redacted changes nothing.
* `Kept`: two values that differ under the keys of secrets and in long strings only.
* `kept_redactValue`: redaction leaves a value that is kept so.
* `redact_repeated`: both, and in memory the context is as it was.
-/

namespace LessonCalc.Event

open LessonCalc.Json

/-! ## Twice -/

/-- A string that was cut is cut again at the same character, to the same mark. -/
theorem cutLong_cutLong (s : RawText) : cutLong (cutLong s) = cutLong s := by
  by_cases long : keptLength < s.codes.length
  · have cut : cutLong s = .ofCodes (s.codes.take keptLength ++ (cutMark : RawText).codes) := if_pos long
    have kept : (s.codes.take keptLength).length = keptLength := List.length_take_of_le long.le
    have long' : keptLength < (cutLong s).codes.length := by
      rw [cut, RawText.codes_ofCodes, List.length_append, kept]
      exact Nat.lt_add_of_pos_right (by decide)
    have front : (cutLong s).codes.take keptLength = s.codes.take keptLength := by
      rw [cut, RawText.codes_ofCodes, List.take_left' kept]
    calc cutLong (cutLong s)
        = .ofCodes ((cutLong s).codes.take keptLength ++ (cutMark : RawText).codes) := if_pos long'
      _ = cutLong s := by rw [front, cut]
  · have whole : cutLong s = s := if_neg long
    rw [whole, whole]

theorem redactItem_redactItem {v : Json} (value : redactValue (redactValue v) = redactValue v) :
    redactItem (redactItem v) = redactItem v := by
  cases v with
  | string s => simpa only [redactItem, redactValue] using value
  | object entries => simpa only [redactItem, redactValue] using value
  | _ => rfl

theorem redactEntry_redactEntry {v : Json} (key : RawText)
    (value : redactValue (redactValue v) = redactValue v) :
    redactEntry key (redactEntry key v) = redactEntry key v := by
  unfold redactEntry
  split
  · rfl
  · exact value

theorem redactValue_redactValue (v : Json) : redactValue (redactValue v) = redactValue v := by
  induction v using Json.induct with
  | string s => rw [redactValue, redactValue, cutLong_cutLong]
  | array items ih =>
      rw [redactValue, redactValue, redactItems_eq_map, redactItems_eq_map, List.map_map]
      exact congrArg Json.array (List.map_congr_left fun v member => redactItem_redactItem (ih v member))
  | object entries ih =>
      rw [redactValue, redactValue, redact_eq_map, redact_eq_map, List.map_map]
      refine congrArg Json.object (List.map_congr_left fun e member => ?_)
      exact congrArg (Prod.mk e.1) (redactEntry_redactEntry e.1 (ih e member))
  | _ => rfl

/-- Redaction of what was redacted changes nothing. -/
theorem redact_redact (context : List (RawText × Json)) : redact (redact context) = redact context := by
  have again := redactValue_redactValue (.object context)
  rw [redactValue, redactValue] at again
  exact Json.object.inj again

/-! ## What is kept -/

mutual

/-- `Kept v w`: two values are the same up to long strings, which are cut, and what stands under the keys
of secrets.  An array keeps its length, and an object keeps its keys in their order. -/
inductive Kept : Json → Json → Prop
  | same {v} : Kept v v
  | cut {s : RawText} : keptLength < s.codes.length →
      Kept (.string s) (.string (.ofCodes (s.codes.take keptLength ++ (cutMark : RawText).codes)))
  | array {items items'} : List.Forall₂ Kept items items' → Kept (.array items) (.array items')
  | object {entries entries'} : List.Forall₂ KeptEntry entries entries' →
      Kept (.object entries) (.object entries')

/-- Two entries of the same key, with a mark if it names a secret and with what is kept if not. -/
inductive KeptEntry : RawText × Json → RawText × Json → Prop
  | secret {k v} : isSecretKey k = true → KeptEntry (k, v) (k, .string redactedMark)
  | plain {k v w} : isSecretKey k = false → Kept v w → KeptEntry (k, v) (k, w)

end

theorem kept_redactItem {v : Json} (value : Kept v (redactValue v)) : Kept v (redactItem v) := by
  cases v with
  | array items => exact .same
  | _ => exact value

theorem keptEntry_redactEntry {v : Json} (key : RawText) (value : Kept v (redactValue v)) :
    KeptEntry (key, v) (key, redactEntry key v) := by
  unfold redactEntry
  split
  · exact .secret ‹_›
  · exact .plain ((Bool.not_eq_true _).mp ‹_›) value

/-- Redaction keeps a value up to secrets and long strings. -/
theorem kept_redactValue (v : Json) : Kept v (redactValue v) := by
  induction v using Json.induct with
  | string s =>
      rw [redactValue]
      unfold cutLong
      dsimp only
      split
      · exact .cut ‹_›
      · exact .same
  | array items ih =>
      rw [redactValue, redactItems_eq_map]
      refine .array (List.forall₂_map_right_iff.mpr (List.forall₂_same.mpr fun v member => ?_))
      exact kept_redactItem (ih v member)
  | object entries ih =>
      rw [redactValue, redact_eq_map]
      refine .object (List.forall₂_map_right_iff.mpr (List.forall₂_same.mpr fun e member => ?_))
      exact keptEntry_redactEntry e.1 (ih e member)
  | _ => exact .same

/-! ## The context -/

/-- Redaction of what was redacted changes nothing, and what redaction makes of a context is the context
up to secrets and long strings.  Where there is room for the calls that it takes, and only there, it is done,
and then there is room to do it again.  Where the context stands in memory, redaction makes a new object that
stands for the redacted one: no cell that was there is changed, and the context stands for what it did. -/
theorem redact_repeated (context : List (RawText × Json)) :
    redact (redact context) = redact context ∧
      Kept (.object context) (.object (redact context)) ∧
      (∀ room made, redactWithin room context = some made ↔
        entriesCalls context ≤ room ∧ made = redact context) ∧
      (∀ room made, redactWithin room context = some made → redactWithin room made = some made) ∧
      ∀ (memory : Memory) (a depth : Nat),
        Shows (fun _ => False) memory (.place a) (.object context) →
        levels (.object context) ≤ depth →
        ∃ out memory', copyObject depth a memory = some (out, memory') ∧
          memory.length ≤ out ∧ memory <+: memory' ∧
          Shows (fun _ => False) memory' (.place out) (.object (redact context)) ∧
          Shows (fun _ => False) memory' (.place a) (.object context) := by
  have kept := kept_redactValue (.object context)
  rw [redactValue] at kept
  refine ⟨redact_redact context, kept, fun _ _ => redactWithin_eq_some_iff, fun room made fits => ?_,
    fun memory a depth shows shallow => ?_⟩
  · have again := redactWithin_redact fits
    obtain ⟨-, rfl⟩ := redactWithin_eq_some_iff.mp fits
    rwa [redact_redact] at again
  obtain ⟨out, memory', ran, new, grown, shows'⟩ :=
    copies depth (fun _ hides => hides.elim) shows shallow
  exact ⟨out, memory', ran, new, grown, shows', shows.grown grown⟩

/-- Of two objects, one in an array and one in an array in it, only the first is copied, and the inner array
is held twice. -/
theorem redact_repeated_users :
    let context : List (RawText × Json) :=
      [("users", .array [.object [("name", .string "ada"), ("api_key", .int 7)],
        .array [.object [("password", .string "x")]]])]
    let memory : Memory :=
      [.object [("name", .string "ada"), ("api_key", .int 7)], .object [("password", .string "x")],
        .array [.place 1], .array [.place 0, .place 2], .object [("users", .place 3)]]
    (Shows (fun _ => False) memory (.place 4) (.object context) ∧ levels (.object context) ≤ 5) ∧
      (∃ out memory', copyObject 5 4 memory = some (out, memory') ∧
        memory.length ≤ out ∧ memory <+: memory' ∧
        Shows (fun _ => False) memory' (.place out) (.object (redact context)) ∧
        Shows (fun _ => False) memory' (.place 4) (.object context)) ∧
      copyObject 5 4 memory = some (5, memory ++
        [.object [("users", .place 7)], .object [("name", .string "ada"),
          ("api_key", .string "[REDACTED]")], .array [.place 6, .place 2]]) := by
  intro context memory
  have visible (a : Nat) : ¬(fun _ : Nat => False) a := id
  have shows : Shows (fun _ => False) memory (.place 4) (.object context) := by
    have user : Shows (fun _ => False) memory (.place 0)
        (.object [("name", .string "ada"), ("api_key", .int 7)]) :=
      .object (visible 0) rfl rfl (by decide) (.cons .string (.cons .int .nil))
    have inner : Shows (fun _ => False) memory (.place 2) (.array [.object [("password", .string "x")]]) :=
      .array (visible 2) rfl (.cons (.object (visible 1) rfl rfl (by decide) (.cons .string .nil)) .nil)
    exact .object (visible 4) rfl rfl (by decide)
      (.cons (.array (visible 3) rfl (.cons user (.cons inner .nil))) .nil)
  have shallow : levels (.object context) ≤ 5 := by decide
  exact ⟨⟨shows, shallow⟩, (redact_repeated context).2.2.2.2 memory 4 5 shows shallow, rfl⟩

end LessonCalc.Event
