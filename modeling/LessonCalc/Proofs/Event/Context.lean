import LessonCalc.Proofs.Event.Line
import LessonCalc.Proofs.Event.Redaction

/-!
# Contexts of texts and counts

The program records events whose context tells names, as texts, and how many there are of something, as
integers.

* `redact_entries`: of such a context redaction leaves the counts, and the texts up to their length.
* `writable_iff_counts`: an event of such a context has a line unless a count is too long.
-/

namespace LessonCalc.Event

/-- Texts as entries of a context. -/
def textEntries (texts : List (RawText × RawText)) : List (RawText × Json) :=
  texts.map fun (key, text) => (key, .string text)

/-- Counts as entries of a context. -/
def countEntries (counts : List (RawText × Int)) : List (RawText × Json) :=
  counts.map fun (key, n) => (key, .int n)

/-- Texts that are cut if they are too long. -/
def cutTexts (texts : List (RawText × RawText)) : List (RawText × RawText) :=
  texts.map fun (key, text) => (key, cutLong text)

variable {e : Event} (texts : List (RawText × RawText)) (counts : List (RawText × Int))

theorem keys_entries : Entries.keys (textEntries texts ++ countEntries counts) =
    texts.map Prod.fst ++ counts.map Prod.fst := by
  rw [Entries.keys, List.map_append, textEntries, countEntries, List.map_map, List.map_map]
  rfl

/-- Where no key names a secret, redaction leaves the counts, and the texts up to their length. -/
theorem redact_entries (plain : ∀ key ∈ texts.map Prod.fst ++ counts.map Prod.fst, isSecretKey key = false) :
    redact (textEntries texts ++ countEntries counts) =
      textEntries (cutTexts texts) ++ countEntries counts := by
  obtain ⟨named, counted⟩ := List.forall_mem_append.mp plain
  rw [redact_eq_map, List.map_append, textEntries, countEntries, cutTexts, textEntries, List.map_map,
    List.map_map, List.map_map]
  congr 1
  · refine List.map_congr_left fun entry member => ?_
    have open_ := named entry.1 (List.mem_map_of_mem member)
    simp [redactEntry, open_, redactValue]
  · refine List.map_congr_left fun entry member => ?_
    have open_ := counted entry.1 (List.mem_map_of_mem member)
    simp [redactEntry, open_, redactValue]

theorem redacted_of_context {context : List (RawText × Json)} (same : redact e.context = context) :
    e.redacted = { e with context } := by
  rw [redacted, same]

/-- An integer of few digits can be written. -/
theorem isOversized_of_lt_pow {n : Int} {digits : Nat} (few : digits ≤ Number.digitLimit)
    (small : n.natAbs < 10 ^ digits) : Json.isOversized n = false :=
  decide_eq_false (Nat.not_le.mpr (Nat.lt_of_lt_of_le small (Nat.pow_le_pow_right (by decide) few)))

theorem isOversized_of_le_one {n : Int} (small : n.natAbs ≤ 1) : Json.isOversized n = false := by
  have digit : n.natAbs < 10 ^ 1 := by omega
  exact isOversized_of_lt_pow (by decide) digit

/-- An event of such a context has a line unless one of its counts is too long. -/
theorem writable_iff_counts (version : e.schemaVersion = 1)
    (context : e.context = textEntries texts ++ countEntries counts) :
    e.Writable ↔ ∀ c ∈ counts, Json.isOversized c.2 = false := by
  have shallow : Json.entriesLevels e.context ≤ nestingLimit := by
    rw [context]
    refine Json.entriesLevels_le_iff.mpr (List.forall_mem_append.mpr
      ⟨List.forall_mem_map.mpr fun _ _ => ?_, List.forall_mem_map.mpr fun _ _ => ?_⟩)
    · simp [Json.levels, nestingLimit]
    · simp [Json.levels, nestingLimit]
  have short : Json.hasOversized (.object e.context) = false ↔
      ∀ c ∈ counts, Json.isOversized c.2 = false := by
    rw [Json.hasOversized, Json.entriesOversized_eq_false_iff, context, List.forall_mem_append,
      textEntries, countEntries, List.forall_mem_map, List.forall_mem_map]
    exact and_iff_right fun _ _ => by simp [Json.hasOversized]
  rw [writable_iff, short, version]
  constructor
  · rintro ⟨_, _, each⟩
    exact each
  · intro each
    exact ⟨shallow, isOversized_of_le_one (by decide), each⟩

end LessonCalc.Event
