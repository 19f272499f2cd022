import LessonCalc.Proofs.Event.Reading

/-!
# Queries

A filter asks each event for a field.  An event that is no object has no fields, and one whose context is no
object has none in its context, so that a damaged log can break a query.

* `keepWhere_eq_ok_iff`: what one filter keeps, and when it can be applied.
* `Query.CanAsk`, `Query.matches`, `answer_eq_ok_iff`: what a query gives, and when it gives anything.
* `read_damaged`: which damage to its files a log bears.
* `not_read_number`: a line that holds a number is not skipped, and stops a query for a level.
-/

namespace LessonCalc.Log

/-! ## Fields of events -/

/-- Whether a value has fields. -/
def isObject : Json → Bool
  | .object _ => true
  | _ => false

/-- Whether a value has fields, and so has its context if there is one. -/
def hasContext : Json → Bool
  | .object entries => isObject ((entries.lookup (.whole "context")).getD (.object []))
  | _ => false

theorem exists_fieldOf_iff {key : String} {e : Json} : (∃ v, fieldOf key e = .ok v) ↔ isObject e = true := by
  cases e <;> simp [fieldOf, isObject]

theorem exists_contextFieldOf_iff {key : String} {e : Json} :
    (∃ v, contextFieldOf key e = .ok v) ↔ hasContext e = true := by
  cases e with
  | object entries => exact exists_fieldOf_iff
  | _ => simp [contextFieldOf, hasContext]

theorem isObject_of_hasContext {e : Json} (has : hasContext e = true) : isObject e = true := by
  cases e with
  | object entries => rfl
  | _ => exact absurd has Bool.false_ne_true

/-! ## One filter -/

/-- A text is asked for: one is given, and it is not empty. -/
def Asks (wanted : Option RawText) : Prop :=
  ∃ text, wanted = some text ∧ text ≠ ""

/-- Whether a field of an event is the text that is asked for. -/
def meets (field : Json → Except LogError Json) (wanted : Option RawText) (e : Json) : Bool :=
  match wanted with
  | none | some (.whole "") => true
  | some text => (field e).toOption.any (·.isString text)

section

variable {field : Json → Except LogError Json} {wanted : Option RawText} {text : RawText}

theorem meets_of_not_asks (nothing : ¬Asks wanted) (e : Json) : meets field wanted e = true := by
  unfold meets
  split
  next => rfl
  next => rfl
  next text given => exact absurd ⟨text, rfl, given⟩ nothing

theorem keepWhere_of_not_asks (nothing : ¬Asks wanted) (events : List Json) :
    keepWhere field wanted events = .ok events := by
  unfold keepWhere
  split
  next => rfl
  next => rfl
  next text given => exact absurd ⟨text, rfl, given⟩ nothing

theorem meets_some (given : text ≠ "") (e : Json) :
    meets field (some text) e = (field e).toOption.any (·.isString text) := by
  unfold meets
  split
  next none => cases none
  next empty => exact absurd (Option.some.inj empty) given
  next same => cases same; rfl

theorem keepWhere_some (given : text ≠ "") (events : List Json) :
    keepWhere field (some text) events = events.filterM fun e => (field e).map (·.isString text) := by
  have test : (fun e => do return (← field e).isString text) =
      fun e => (field e).map (·.isString text) := by
    funext e
    cases field e <;> rfl
  rw [← test]
  unfold keepWhere
  split
  next none => cases none
  next empty => exact absurd (Option.some.inj empty) given
  next same => cases same; rfl

end

/-- A step that can fail gives a result exactly if both of its parts do. -/
theorem bind_eq_ok_iff {ε α β : Type} {first : Except ε α} {next : α → Except ε β} {b : β} :
    (first >>= next) = .ok b ↔ ∃ a, first = .ok a ∧ next a = .ok b := by
  cases first <;> simp [bind, Except.bind]

/-- A test that can fail keeps the items that pass it, if it fails on none. -/
theorem filterAuxM_eq_ok_iff {α ε : Type} {test : α → Except ε Bool} {items passed kept : List α} :
    items.filterAuxM test passed = .ok kept ↔
      (∀ a ∈ items, ∃ b, test a = .ok b) ∧
        kept = (items.filter fun a => (test a).toOption.any id).reverse ++ passed := by
  induction items generalizing passed with
  | nil => simp [List.filterAuxM, pure, Except.pure, eq_comm]
  | cons a items ih =>
      rw [List.filterAuxM, List.forall_mem_cons]
      cases tested : test a with
      | error e => simp [bind, Except.bind]
      | ok b =>
          simp only [bind, Except.bind, ih]
          cases b <;> simp [tested, Except.toOption]

theorem filterM_eq_ok_iff {α ε : Type} {test : α → Except ε Bool} {items kept : List α} :
    items.filterM test = .ok kept ↔
      (∀ a ∈ items, ∃ b, test a = .ok b) ∧ kept = items.filter fun a => (test a).toOption.any id := by
  rw [List.filterM, bind_eq_ok_iff]
  simp only [filterAuxM_eq_ok_iff, List.append_nil]
  constructor
  · rintro ⟨_, ⟨total, rfl⟩, same⟩
    exact ⟨total, by rw [← Except.ok.inj same, List.reverse_reverse]⟩
  · rintro ⟨total, rfl⟩
    exact ⟨_, ⟨total, rfl⟩, congrArg Except.ok (List.reverse_reverse _)⟩

/-- A filter keeps the events that meet it.  It can be applied if it asks for nothing, or else if every
event has the field. -/
theorem keepWhere_eq_ok_iff {field : Json → Except LogError Json} {wanted : Option RawText}
    {events kept : List Json} :
    keepWhere field wanted events = .ok kept ↔
      (Asks wanted → ∀ e ∈ events, ∃ v, field e = .ok v) ∧ kept = events.filter (meets field wanted) := by
  by_cases asks : Asks wanted
  · obtain ⟨text, rfl, given⟩ := asks
    have total : ∀ e, (∃ b, (field e).map (·.isString text) = .ok b) ↔ ∃ v, field e = .ok v := by
      intro e
      cases field e <;> simp [Except.map]
    have kept : ∀ e, ((field e).map (·.isString text)).toOption.any id = meets field (some text) e := by
      intro e
      rw [meets_some given]
      cases field e <;> rfl
    simp only [keepWhere_some given, filterM_eq_ok_iff, total, kept]
    exact and_congr_left' ⟨fun all _ => all, fun all => all ⟨text, rfl, given⟩⟩
  · have all : events.filter (meets field wanted) = events :=
      List.filter_eq_self.mpr fun e _ => meets_of_not_asks asks e
    rw [all, keepWhere_of_not_asks asks, Except.ok.injEq, eq_comm]
    exact (and_iff_right fun asked => absurd asked asks).symm

/-! ## All filters -/

/-- Whether an event meets all filters of a query. -/
def Query.matches (query : Query) (e : Json) : Bool :=
  meets (fieldOf "level") query.level e && meets (fieldOf "event_type") query.kind e &&
    meets (contextFieldOf "tool") query.tool e && meets (contextFieldOf "batch_id") query.batch e

/-- An event can be asked by a query.  It must have fields if it is asked for its level or its kind, and
also in its context if it meets what is asked there and is asked for its tool or its batch. -/
structure Query.CanAsk (query : Query) (e : Json) : Prop where
  fields : Asks query.level ∨ Asks query.kind → isObject e = true
  context : Asks query.tool ∨ Asks query.batch → meets (fieldOf "level") query.level e = true →
    meets (fieldOf "event_type") query.kind e = true → hasContext e = true

/-- A query gives the latest of the events that match it, if it can ask all. -/
theorem answer_eq_ok_iff {query : Query} {events found : List Json} :
    answer query events = .ok found ↔
      (∀ e ∈ events, query.CanAsk e) ∧
        found = takeTo (min query.limit queryCap) (events.filter query.matches).reverse := by
  have filtered : events.filter query.matches =
      (((events.filter (meets (fieldOf "level") query.level)).filter
        (meets (fieldOf "event_type") query.kind)).filter
        (meets (contextFieldOf "tool") query.tool)).filter (meets (contextFieldOf "batch_id") query.batch) := by
    simp only [List.filter_filter]
    exact List.filter_congr fun e _ => by
      simp only [Query.matches, Bool.and_comm]
  rw [filtered]
  simp only [answer, bind_eq_ok_iff, keepWhere_eq_ok_iff, exists_fieldOf_iff, exists_contextFieldOf_iff]
  constructor
  · rintro ⟨_, ⟨level, rfl⟩, _, ⟨kind, rfl⟩, _, ⟨tool, rfl⟩, _, ⟨batch, rfl⟩, same⟩
    refine ⟨fun e member => ⟨fun asks => ?_, fun asks atLevel ofKind => ?_⟩, (Except.ok.inj same).symm⟩
    · -- an event that no filter has asked before meets all of them
      by_cases first : Asks query.level
      · exact level first e member
      · exact kind (asks.resolve_left first) e
          (List.mem_filter.mpr ⟨member, meets_of_not_asks first e⟩)
    · have passed := List.mem_filter.mpr ⟨List.mem_filter.mpr ⟨member, atLevel⟩, ofKind⟩
      by_cases first : Asks query.tool
      · exact tool first e passed
      · exact batch (asks.resolve_left first) e
          (List.mem_filter.mpr ⟨passed, meets_of_not_asks first e⟩)
  · rintro ⟨can, rfl⟩
    have context : Asks query.tool ∨ Asks query.batch →
        ∀ e ∈ (events.filter (meets (fieldOf "level") query.level)).filter
          (meets (fieldOf "event_type") query.kind), hasContext e = true := by
      intro asks e member
      obtain ⟨member, ofKind⟩ := List.mem_filter.mp member
      obtain ⟨member, atLevel⟩ := List.mem_filter.mp member
      exact (can e member).context asks atLevel ofKind
    refine ⟨_, ⟨fun asks e member => (can e member).fields (.inl asks), rfl⟩,
      _, ⟨fun asks e member => (can e (List.mem_of_mem_filter member)).fields (.inr asks), rfl⟩,
      _, ⟨fun asks => context (.inl asks), rfl⟩,
      _, ⟨fun asks e member => context (.inr asks) e (List.mem_of_mem_filter member), rfl⟩, rfl⟩

theorem mem_of_mem_takeTo {α : Type} {limit : Int} {items : List α} {a : α}
    (member : a ∈ takeTo limit items) : a ∈ items := by
  unfold takeTo at member
  split at member <;> exact List.mem_of_mem_take member

/-! ## Damaged logs -/

section

variable {log : Log} {t : FileTree} {content : Bytes}

theorem read_eq_ok_iff (file : t.read log.globalFile = .ok content) {query : Query} {found : List Json} :
    log.read t query = .ok found ↔
      Legible t.offsetLimit log.window content ∧ (∀ e ∈ eventsIn log.window content, query.CanAsk e) ∧
        found = takeTo (min query.limit queryCap)
          ((eventsIn log.window content).filter query.matches).reverse := by
  rw [read, bind_eq_ok_iff, readFile_of_read file]
  simp only [readBytes_eq_ok_iff, answer_eq_ok_iff]
  constructor
  · rintro ⟨_, ⟨legible, rfl⟩, rest⟩
    exact ⟨legible, rest⟩
  · rintro ⟨legible, rest⟩
    exact ⟨_, ⟨legible, rfl⟩, rest⟩

theorem readBatch_eq_ok_iff {batch : String} (safe : isSafeId batch = true)
    (file : t.read (log.batchFile batch) = .ok content) {found : List Json} :
    log.readBatch t batch = .ok found ↔
      Legible t.offsetLimit log.window content ∧ found = eventsIn log.window content := by
  rw [readBatch, if_pos safe, readFile_of_read file, readBytes_eq_ok_iff]

end

/-- Whatever the bytes of its files are, a query of a log gives the latest of the matching events among the
values in the end of the file of all events, and reading a batch gives those in the end of its file; lines
that are not JSON do not matter.  All queries give objects, and nothing else happens, exactly if the end of
the file is legible and each value in it is an object whose context is missing or an object; a batch does if
the end of its file is legible and each value in it is an object.  A query with a filter never gives
anything but objects. -/
theorem read_damaged {log : Log} {t : FileTree} {content own : Bytes} {batch : String}
    (file : t.read log.globalFile = .ok content) (safe : isSafeId batch = true)
    (batchFile : t.read (log.batchFile batch) = .ok own) :
    (∀ query found, log.read t query = .ok found ↔
      Legible t.offsetLimit log.window content ∧ (∀ e ∈ eventsIn log.window content, query.CanAsk e) ∧
        found = takeTo (min query.limit queryCap)
          ((eventsIn log.window content).filter query.matches).reverse) ∧
    (∀ found, log.readBatch t batch = .ok found ↔
      Legible t.offsetLimit log.window own ∧ found = eventsIn log.window own) ∧
    ((∀ query : Query, 0 ≤ query.limit →
        ∃ found, log.read t query = .ok found ∧ ∀ e ∈ found, isObject e = true) ↔
      Legible t.offsetLimit log.window content ∧ ∀ e ∈ eventsIn log.window content, hasContext e = true) ∧
    ((∃ found, log.readBatch t batch = .ok found ∧ ∀ e ∈ found, isObject e = true) ↔
      Legible t.offsetLimit log.window own ∧ ∀ e ∈ eventsIn log.window own, isObject e = true) ∧
    (∀ query found, log.read t query = .ok found →
      Asks query.level ∨ Asks query.kind ∨ Asks query.tool ∨ Asks query.batch →
      ∀ e ∈ found, isObject e = true) := by
  have given : ∀ {query : Query} {e : Json},
      e ∈ takeTo (min query.limit queryCap)
        ((eventsIn log.window content).filter query.matches).reverse →
      e ∈ eventsIn log.window content ∧ query.matches e = true :=
    fun member => List.mem_filter.mp (List.mem_reverse.mp (mem_of_mem_takeTo member))
  refine ⟨fun _ _ => read_eq_ok_iff file, fun _ => readBatch_eq_ok_iff safe batchFile,
    ⟨fun all => ?_, fun ⟨legible, has⟩ query _ => ?_⟩, ?_, fun query found ok asks e member => ?_⟩
  · -- a query for a tool asks every value for its context
    obtain ⟨_, ok, -⟩ := all { tool := some "any" } (by decide)
    obtain ⟨legible, can, -⟩ := (read_eq_ok_iff file).mp ok
    exact ⟨legible, fun e member => (can e member).context (.inl ⟨_, rfl, by decide⟩) rfl rfl⟩
  · have can : ∀ e ∈ eventsIn log.window content, query.CanAsk e := fun e member =>
      ⟨fun _ => isObject_of_hasContext (has e member), fun _ _ _ => has e member⟩
    exact ⟨_, (read_eq_ok_iff file).mpr ⟨legible, can, rfl⟩,
      fun e member => isObject_of_hasContext (has e (given member).1)⟩
  · simp only [readBatch_eq_ok_iff safe batchFile]
    constructor
    · rintro ⟨_, ⟨legible, rfl⟩, objects⟩
      exact ⟨legible, objects⟩
    · rintro ⟨legible, objects⟩
      exact ⟨_, ⟨legible, rfl⟩, objects⟩
  · obtain ⟨-, can, rfl⟩ := (read_eq_ok_iff file).mp ok
    obtain ⟨member, matched⟩ := given member
    simp only [Query.matches, Bool.and_eq_true] at matched
    obtain ⟨⟨⟨atLevel, ofKind⟩, -⟩, -⟩ := matched
    obtain ⟨fields, context⟩ := can e member
    rcases asks with asks | asks | asks
    · exact fields (.inl asks)
    · exact fields (.inr asks)
    · exact isObject_of_hasContext (context asks atLevel ofKind)

/-- An event that has a level and nothing else, and its line. -/
def informed : Json :=
  .object [("level", .string "info")]

def informedLine : Bytes :=
  [0x7B, 0x22, 0x6C, 0x65, 0x76, 0x65, 0x6C, 0x22, 0x3A, 0x22, 0x69, 0x6E, 0x66, 0x6F, 0x22, 0x7D, 0x0A]

/-- The text of the line. -/
def informedText : List Char :=
  "\x7b\"level\":\"info\"\x7d".toList

theorem holds_informed : event? informedText = some informed ∧ stop? informedText = none := by
  constructor <;> cbv

/-- A line that is no text, before an event. -/
def brokenFirst : Bytes :=
  0xFF :: 0x0A :: informedLine

/-- A line that is no text does not matter to a query for a level, nor to the batch. -/
theorem read_damaged_byte :
    (ofProject {} 100).read (filesOf brokenFirst) { level := some "info" } = .ok [informed] ∧
      (ofProject {} 100).readBatch (filesOf brokenFirst) "b" = .ok [informed] := by
  have texts : lines (tail 100 brokenFirst) = [['\uFFFD'], informedText] := by cbv
  have broken : event? ['\uFFFD'] = none ∧ stop? ['\uFFFD'] = none := ⟨rfl, rfl⟩
  have legible : Legible (filesOf brokenFirst).offsetLimit (ofProject {} 100).window brokenFirst := by
    refine ⟨by decide +kernel, ?_⟩
    rw [ofProject, texts]
    exact List.forall_mem_cons.mpr ⟨broken.2, List.forall_mem_singleton.mpr holds_informed.2⟩
  have events : eventsIn (ofProject {} 100).window brokenFirst = [informed] := by
    rw [eventsIn, ofProject, texts, List.filterMap_cons, broken.1, List.filterMap_cons,
      holds_informed.1]
    rfl
  have file : (filesOf brokenFirst).read (ofProject {} 100).globalFile = .ok brokenFirst := by decide
  have own : (filesOf brokenFirst).read ((ofProject {} 100).batchFile "b") = .ok brokenFirst := by decide
  obtain ⟨read, readBatch, -⟩ := read_damaged file (by decide : isSafeId "b" = true) own
  refine ⟨(read _ _).mpr ⟨legible, ?_, ?_⟩, (readBatch _).mpr ⟨legible, events.symm⟩⟩
  · rw [events]
    exact List.forall_mem_singleton.mpr ⟨fun _ => rfl, fun asks => by
      rcases asks with ⟨_, none, _⟩ | ⟨_, none, _⟩ <;> cases none⟩
  · rw [events]
    rfl

/-- A number on a line, before an event. -/
def numberFirst : Bytes :=
  0x31 :: 0x0A :: informedLine

/-- A line that holds a number is not skipped: it is read as an event, and stops a query for a level. -/
theorem not_read_number :
    (ofProject {} 100).read (filesOf numberFirst) {} = .ok [informed, .int 1] ∧
      (ofProject {} 100).read (filesOf numberFirst) { level := some "info" } = .error .noObject := by
  have texts : lines (tail 100 numberFirst) = [['1'], informedText] := by cbv
  have number : event? ['1'] = some (.int 1) ∧ stop? ['1'] = none := ⟨rfl, rfl⟩
  have file : (filesOf numberFirst).read (ofProject {} 100).globalFile = .ok numberFirst := by decide
  have read : (ofProject {} 100).readFile (filesOf numberFirst) (ofProject {} 100).globalFile =
      .ok [.int 1, informed] := by
    rw [readFile_of_read file, ofProject, readBytes_eq_ok_iff]
    refine ⟨⟨by decide +kernel, ?_⟩, ?_⟩
    · rw [texts]
      exact List.forall_mem_cons.mpr ⟨number.2, List.forall_mem_singleton.mpr holds_informed.2⟩
    · rw [eventsIn, texts, List.filterMap_cons, number.1, List.filterMap_cons, holds_informed.1]
      rfl
  constructor <;>
    · rw [Log.read, read]
      rfl

end LessonCalc.Log
