import LessonCalc.Proofs.Event.Redaction
import LessonCalc.Proofs.Json.Sorted
import Mathlib.Data.List.Forall2

/-!
# Redaction in memory

`redact` makes a value from a value.  A program holds arrays and objects by their places in memory, and
redaction there fills a new object entry by entry, while the objects around it are still being filled.
Here it is told what that does to the memory.

* `Shows`: what is held stands for a value, by way of cells that may be read.
* `Shows.frame`: changes of other cells make no difference to that.
* `copyObject`: makes the redacted copy of an object in memory.
* `Filling`: an object that is being filled, beside everything that was there before.
* `copies`: the copy stands for the redacted value, and every cell that was there is as it was.
-/

namespace LessonCalc.Event

open LessonCalc.Json

/-! ## Memory -/

/-- What a name, an item or an entry holds: a scalar, or the place of an array or an object. -/
inductive Held where
  | null
  | bool (value : Bool)
  | int (value : Int)
  | float (value : Float)
  | string (value : RawText)
  | place (address : Nat)
  deriving Repr

/-- An array or an object in memory. -/
inductive Cell where
  | array (items : List Held)
  | object (entries : Entries RawText Held)
  deriving Repr

/-- The cells of a memory, by their addresses. -/
abbrev Memory := List Cell

/-- `Shows hidden memory h v`: what is held stands for a value, and none of the cells that are read to
find it is hidden. -/
inductive Shows (hidden : Nat → Prop) (memory : Memory) : Held → Json → Prop
  | null : Shows hidden memory .null .null
  | bool {b} : Shows hidden memory (.bool b) (.bool b)
  | int {n} : Shows hidden memory (.int n) (.int n)
  | float {x} : Shows hidden memory (.float x) (.float x)
  | string {s} : Shows hidden memory (.string s) (.string s)
  | array {a held items} :
      ¬hidden a → memory[a]? = some (.array held) →
      List.Forall₂ (Shows hidden memory) held items →
      Shows hidden memory (.place a) (.array items)
  | object {a held entries} :
      ¬hidden a → memory[a]? = some (.object held) →
      held.keys = Entries.keys entries → held.keys.Nodup →
      List.Forall₂ (Shows hidden memory) (held.map Prod.snd) (entries.map Prod.snd) →
      Shows hidden memory (.place a) (.object entries)

section Shows

variable {hidden hidden' : Nat → Prop} {memory memory' : Memory} {h : Held} {v : Json}

theorem forall₂_imp_of_mem {α β : Type} {R S : α → β → Prop} {as : List α} {bs : List β}
    (related : List.Forall₂ R as bs) (imp : ∀ b ∈ bs, ∀ a, R a b → S a b) : List.Forall₂ S as bs := by
  induction related with
  | nil => exact .nil
  | cons first _ ih =>
      obtain ⟨here, later⟩ := List.forall_mem_cons.mp imp
      exact .cons (here _ first) (ih later)

/-- What is held stands for the same value where the cells that may be read are as they were, and may still
be read. -/
theorem Shows.frame (shows : Shows hidden memory h v)
    (kept : ∀ a c, ¬hidden a → memory[a]? = some c → ¬hidden' a ∧ memory'[a]? = some c) :
    Shows hidden' memory' h v := by
  induction v using Json.induct generalizing h with
  | null => cases shows; exact .null
  | bool b => cases shows; exact .bool
  | int n => cases shows; exact .int
  | float x => cases shows; exact .float
  | string s => cases shows; exact .string
  | array items ih =>
      cases shows with
      | array visible here each =>
          obtain ⟨visible, here⟩ := kept _ _ visible here
          exact .array visible here (forall₂_imp_of_mem each fun v member h => ih v member)
  | object entries ih =>
      cases shows with
      | object visible here keys nodup each =>
          obtain ⟨visible, here⟩ := kept _ _ visible here
          refine .object visible here keys nodup (forall₂_imp_of_mem each fun v member h => ?_)
          obtain ⟨e, listed, rfl⟩ := List.mem_map.mp member
          exact ih e listed

theorem getElem?_of_prefix {a : Nat} {c : Cell} (grown : memory <+: memory')
    (here : memory[a]? = some c) : memory'[a]? = some c := by
  obtain ⟨inside, rfl⟩ := List.getElem?_eq_some_iff.mp here
  exact List.prefix_iff_getElem?.mp grown a inside

/-- What is held stands for the same value in a memory with more cells. -/
theorem Shows.grown (shows : Shows hidden memory h v) (grown : memory <+: memory') :
    Shows hidden memory' h v :=
  shows.frame fun _ _ visible here => ⟨visible, getElem?_of_prefix grown here⟩

end Shows

/-! ## Programs -/

/-- A computation that allocates and changes cells.  It fails if a cell is not what it is taken for. -/
abbrev Program (α : Type) := StateT Memory Option α

/-- The cell at an address. -/
def look (a : Nat) : Program Cell := fun memory =>
  memory[a]?.map fun c => (c, memory)

/-- Places a new cell behind the others. -/
def allocate (c : Cell) : Program Nat := fun memory =>
  some (memory.length, memory ++ [c])

/-- Sets a key of an object. -/
def assign (a : Nat) (key : RawText) (h : Held) : Program Unit := do
  match ← look a with
  | .object entries => modify fun memory => memory.set a (.object (entries.insert key h))
  | .array _ => failure

section Copying

variable (copyObject : Nat → Program Nat)

/-- The copy of an item of an array.  An array in an array is not copied but held twice. -/
def copyItem : Held → Program Held
  | .place a => do
    match ← look a with
    | .object _ => return .place (← copyObject a)
    | .array _ => return .place a
  | .string s => return .string (cutLong s)
  | h => return h

/-- The copy of a value of an object. -/
def copyValue : Held → Program Held
  | .place a => do
    match ← look a with
    | .object _ => return .place (← copyObject a)
    | .array items => return .place (← allocate (.array (← items.mapM (copyItem copyObject))))
  | h => copyItem copyObject h

/-- What a copy of an object holds under a key. -/
def copyEntry (key : RawText) (h : Held) : Program Held :=
  if isSecretKey key then return .string redactedMark else copyValue copyObject h

/-- Copies an entry of an object to another one. -/
def fillEntry (out : Nat) (entry : RawText × Held) : Program Unit := do
  let h ← copyEntry copyObject entry.1 entry.2
  assign out entry.1 h

end Copying

/-- Makes the redacted copy of an object, in at most the given depth of calls. -/
def copyObject : Nat → Nat → Program Nat
  | 0, _ => failure
  | depth + 1, a => do
    match ← look a with
    | .object entries =>
      let out ← allocate (.object [])
      entries.forM (fillEntry (copyObject depth) out)
      return out
    | .array _ => failure

theorem Program.bind_of_eq {α β : Type} {first : Program α} {more : α → Program β} {a : α}
    {memory memory' : Memory} (ran : first memory = some (a, memory')) :
    (first >>= more) memory = more a memory' := by
  have opened : (first >>= more) memory = (first memory).bind fun r => more r.1 r.2 := rfl
  rw [opened, ran]
  rfl

theorem look_eq {memory : Memory} {a : Nat} {c : Cell} (here : memory[a]? = some c) :
    look a memory = some (c, memory) := by
  rw [look, here]
  rfl

theorem allocate_eq (c : Cell) (memory : Memory) :
    allocate c memory = some (memory.length, memory ++ [c]) := rfl

theorem assign_eq {memory : Memory} {a : Nat} {entries : Entries RawText Held} {key : RawText} {h : Held}
    (here : memory[a]? = some (.object entries)) (fresh : key ∉ entries.keys) :
    assign a key h memory = some ((), memory.set a (.object (entries ++ [(key, h)]))) := by
  rw [assign, Program.bind_of_eq (look_eq here), ← Entries.insert_of_notMem fresh]
  rfl

/-! ## Copies -/

/-- A computation adds cells and changes none, and what it gives stands for a value. -/
def Gives (hidden : Nat → Prop) (memory : Memory) (program : Program Held) (v : Json) : Prop :=
  ∃ h memory', program memory = some (h, memory') ∧ memory <+: memory' ∧ Shows hidden memory' h v

/-- Objects down to a depth are copied: what is hidden is left alone, and the copy is a new object. -/
def Copies (copyObject : Nat → Program Nat) (depth : Nat) : Prop :=
  ∀ {hidden : Nat → Prop} {memory : Memory} {a : Nat} {entries : List (RawText × Json)},
    (∀ b, hidden b → b < memory.length) → Shows hidden memory (.place a) (.object entries) →
    levels (.object entries) ≤ depth →
    ∃ out memory', copyObject a memory = some (out, memory') ∧ memory.length ≤ out ∧
      memory <+: memory' ∧ Shows hidden memory' (.place out) (.object (redact entries))

section Copies

variable {copyObject : Nat → Program Nat} {depth : Nat} (copies : Copies copyObject depth)
  {hidden : Nat → Prop} {memory : Memory} {h : Held} {v : Json} {items : List Json} {held : List Held}

theorem Shows.gives (shows : Shows hidden memory h v) : Gives hidden memory (pure h) v :=
  ⟨h, memory, rfl, List.prefix_rfl, shows⟩

theorem Gives.of_look {a : Nat} {c : Cell} {more : Cell → Program Held} (here : memory[a]? = some c)
    (gives : Gives hidden memory (more c) v) : Gives hidden memory (look a >>= more) v := by
  rw [Gives, Program.bind_of_eq (look_eq here)]
  exact gives

include copies

theorem gives_copyObject {a : Nat} {entries : List (RawText × Json)}
    (inside : ∀ b, hidden b → b < memory.length) (shows : Shows hidden memory (.place a) (.object entries))
    (shallow : levels (.object entries) ≤ depth) :
    Gives hidden memory (return .place (← copyObject a)) (.object (redact entries)) := by
  obtain ⟨out, memory', ran, _, grown, shows'⟩ := copies inside shows shallow
  exact ⟨.place out, memory', Program.bind_of_eq ran, grown, shows'⟩

theorem gives_copyItem (inside : ∀ b, hidden b → b < memory.length) (shows : Shows hidden memory h v)
    (shallow : levels v ≤ depth) : Gives hidden memory (copyItem copyObject h) (redactItem v) := by
  cases shows with
  | null => exact Shows.null.gives
  | bool => exact Shows.bool.gives
  | int => exact Shows.int.gives
  | float => exact Shows.float.gives
  | string => exact Shows.string.gives
  | array visible here each => exact .of_look here (Shows.array visible here each).gives
  | object visible here keys nodup each =>
      exact .of_look here
        (gives_copyObject copies inside (.object visible here keys nodup each) shallow)

/-- The items of an array are copied one after the other. -/
theorem exists_copyItems (inside : ∀ b, hidden b → b < memory.length)
    (shows : List.Forall₂ (Shows hidden memory) held items) (shallow : ∀ v ∈ items, levels v ≤ depth) :
    ∃ made memory', held.mapM (copyItem copyObject) memory = some (made, memory') ∧
      memory <+: memory' ∧ List.Forall₂ (Shows hidden memory') made (items.map redactItem) := by
  induction held generalizing items memory with
  | nil =>
      cases shows
      exact ⟨[], memory, rfl, List.prefix_rfl, .nil⟩
  | cons h held ih =>
      cases shows with
      | cons first rest =>
          obtain ⟨here, later⟩ := List.forall_mem_cons.mp shallow
          obtain ⟨w, memory₁, ran, grown, shows₁⟩ := gives_copyItem copies inside first here
          have inside₁ : ∀ b, hidden b → b < memory₁.length := fun b hides =>
            Nat.lt_of_lt_of_le (inside b hides) grown.length_le
          obtain ⟨made, memory₂, ran', grown', each⟩ :=
            ih inside₁ (rest.imp fun _ _ shows => shows.grown grown) later
          refine ⟨w :: made, memory₂, ?_, grown.trans grown', .cons (shows₁.grown grown') each⟩
          rw [List.mapM_cons, Program.bind_of_eq ran, Program.bind_of_eq ran']
          rfl

theorem gives_copyValue (inside : ∀ b, hidden b → b < memory.length) (shows : Shows hidden memory h v)
    (shallow : levels v ≤ depth) : Gives hidden memory (copyValue copyObject h) (redactValue v) := by
  cases shows with
  | null => exact Shows.null.gives
  | bool => exact Shows.bool.gives
  | int => exact Shows.int.gives
  | float => exact Shows.float.gives
  | string => exact Shows.string.gives
  | array visible here each =>
      rw [levels_array] at shallow
      obtain ⟨made, memory₁, ran, grown, shows₁⟩ := exists_copyItems copies inside each
        (itemsLevels_le_iff.mp (Nat.le_of_succ_le shallow))
      have visible₁ : ¬hidden memory₁.length := fun hides =>
        absurd (inside _ hides) (Nat.not_lt.mpr grown.length_le)
      have after : memory₁ <+: memory₁ ++ [.array made] := List.prefix_append _ _
      rw [redactValue, redactItems_eq_map]
      refine .of_look here ⟨.place memory₁.length, memory₁ ++ [.array made], ?_, grown.trans after,
        .array visible₁ List.getElem?_concat_length (shows₁.imp fun _ _ shows => shows.grown after)⟩
      exact Program.bind_of_eq ran
  | object visible here keys nodup each =>
      rw [redactValue]
      exact .of_look here
        (gives_copyObject copies inside (.object visible here keys nodup each) shallow)

theorem gives_copyEntry (inside : ∀ b, hidden b → b < memory.length) (shows : Shows hidden memory h v)
    (shallow : levels v ≤ depth) (key : RawText) :
    Gives hidden memory (copyEntry copyObject key h) (redactEntry key v) := by
  unfold copyEntry redactEntry
  split
  · exact Shows.string.gives
  · exact gives_copyValue copies inside shows shallow

end Copies

/-! ## Objects that are filled -/

/-- Behind the cells that were there before stands an object that is being filled: it holds the entries that
are done, and nothing that they stand for leads back to it. -/
structure Filling (hidden : Nat → Prop) (front memory : Memory) (done : Entries RawText Held)
    (made : List (RawText × Json)) : Prop where
  kept : front <+: memory
  here : memory[front.length]? = some (.object done)
  keys : done.keys = Entries.keys made
  shows : List.Forall₂ (Shows (fun a => hidden a ∨ a = front.length) memory)
    (done.map Prod.snd) (made.map Prod.snd)

section Filling

variable {copyObject : Nat → Program Nat} {depth : Nat} {hidden : Nat → Prop} {front memory : Memory}
  {done held : Entries RawText Held} {made entries : List (RawText × Json)} {key : RawText} {h : Held}
  {v : Json}

/-- An object that is being filled takes an entry. -/
theorem Filling.step (copies : Copies copyObject depth) (filling : Filling hidden front memory done made)
    (inside : ∀ b, hidden b → b < front.length) (shows : Shows hidden front h v)
    (shallow : levels v ≤ depth) (fresh : key ∉ done.keys) :
    ∃ w memory', fillEntry copyObject front.length (key, h) memory = some ((), memory') ∧
      Filling hidden front memory' (done ++ [(key, w)]) (made ++ [(key, redactEntry key v)]) := by
  -- the object that is being filled is hidden from the copy of its value, so nothing there leads back to it
  have shows' : Shows (fun a => hidden a ∨ a = front.length) memory h v := by
    refine shows.frame fun a c visible here => ⟨?_, getElem?_of_prefix filling.kept here⟩
    have before := (List.getElem?_eq_some_iff.mp here).1
    rintro (hides | same)
    · exact visible hides
    · omega
  have inside' : ∀ b, hidden b ∨ b = front.length → b < memory.length := by
    have last := (List.getElem?_eq_some_iff.mp filling.here).1
    rintro b (hides | rfl)
    · exact (inside b hides).trans last
    · exact last
  obtain ⟨w, memory₁, ran, grown, shows₁⟩ := gives_copyEntry copies inside' shows' shallow key
  have here₁ := getElem?_of_prefix grown filling.here
  have frame : ∀ {h v}, Shows (fun a => hidden a ∨ a = front.length) memory₁ h v →
      Shows (fun a => hidden a ∨ a = front.length)
        (memory₁.set front.length (.object (done ++ [(key, w)]))) h v := by
    intro h v shows
    refine shows.frame fun a c visible here => ⟨visible, ?_⟩
    rw [List.getElem?_set_ne fun same => visible (.inr same.symm), here]
  refine ⟨w, memory₁.set front.length (.object (done ++ [(key, w)])), ?_, ?_, ?_, ?_, ?_⟩
  · rw [fillEntry, Program.bind_of_eq ran, assign_eq here₁ fresh]
  · obtain ⟨more, rfl⟩ := filling.kept.trans grown
    rw [List.set_append_right _ _ (Nat.le_refl _)]
    exact List.prefix_append _ _
  · exact List.getElem?_set_self (List.getElem?_eq_some_iff.mp here₁).1
  · have keys := filling.keys
    simp only [Entries.keys, List.map_append, List.map_cons, List.map_nil] at keys ⊢
    rw [keys]
  · rw [List.map_append, List.map_append]
    exact List.rel_append (filling.shows.imp fun _ _ shows => frame (shows.grown grown))
      (.cons (frame shows₁) .nil)

/-- An object that is being filled takes all entries of another one. -/
theorem Filling.run (copies : Copies copyObject depth) (filling : Filling hidden front memory done made)
    (inside : ∀ b, hidden b → b < front.length) (keys : held.keys = Entries.keys entries)
    (shows : List.Forall₂ (Shows hidden front) (held.map Prod.snd) (entries.map Prod.snd))
    (shallow : ∀ e ∈ entries, levels e.2 ≤ depth)
    (nodup : (Entries.keys done ++ Entries.keys held).Nodup) :
    ∃ more memory', held.forM (fillEntry copyObject front.length) memory = some ((), memory') ∧
      Filling hidden front memory' (done ++ more) (made ++ redact entries) := by
  induction held generalizing entries memory done made with
  | nil =>
      cases entries with
      | cons _ _ => cases keys
      | nil =>
          refine ⟨[], memory, rfl, ?_⟩
          rw [redact, List.append_nil, List.append_nil]
          exact filling
  | cons first held ih =>
      obtain ⟨key, h⟩ := first
      cases entries with
      | nil => cases keys
      | cons entry entries =>
          obtain ⟨key', v⟩ := entry
          obtain ⟨rfl, keys'⟩ := List.cons.inj keys
          obtain ⟨showsFirst, shows⟩ := List.forall₂_cons.mp shows
          obtain ⟨shallowFirst, shallow⟩ := List.forall_mem_cons.mp shallow
          have fresh : key ∉ done.keys := fun member =>
            (List.nodup_append.mp nodup).2.2 key member key List.mem_cons_self rfl
          -- each key is new to the copy, so its entry goes behind those that are done
          obtain ⟨w, memory₁, ran, filling₁⟩ := filling.step copies inside showsFirst shallowFirst fresh
          have nodup₁ : (Entries.keys (done ++ [(key, w)]) ++ Entries.keys held).Nodup := by
            simpa [Entries.keys] using nodup
          obtain ⟨more, memory₂, ran', filling₂⟩ := ih filling₁ keys' shows shallow nodup₁
          refine ⟨(key, w) :: more, memory₂, ?_, ?_⟩
          · exact (Program.bind_of_eq ran).trans ran'
          · rw [redact, List.append_cons done, List.append_cons made]
            exact filling₂

end Filling

/-- The copy of an object stands for its redacted value, and every cell that was there is as it was. -/
theorem copies (depth : Nat) : Copies (copyObject depth) depth := by
  induction depth with
  | zero =>
      intro hidden memory a entries inside shows shallow
      cases shallow
  | succ depth ih =>
      intro hidden memory a entries inside shows shallow
      rw [levels_object] at shallow
      have redactedKeys : Entries.keys (redact entries) = Entries.keys entries := by
        rw [redact_eq_map, Entries.keys, List.map_map]
        rfl
      cases shows with
      | object visible here keys nodup each =>
          have empty : Filling hidden memory (memory ++ [.object []]) [] [] :=
            ⟨List.prefix_append _ _, List.getElem?_concat_length, rfl, .nil⟩
          obtain ⟨more, memory', ran, filling⟩ := empty.run ih inside keys each
            (entriesLevels_le_iff.mp (Nat.le_of_succ_le_succ shallow)) nodup
          rw [List.nil_append, List.nil_append] at filling
          refine ⟨memory.length, memory', ?_, Nat.le_refl _, filling.kept, .object ?_ filling.here
            filling.keys ?_ (filling.shows.imp fun _ _ shows => shows.frame fun a c visible here =>
              ⟨fun hides => visible (.inl hides), here⟩)⟩
          · rw [copyObject, Program.bind_of_eq (look_eq here)]
            exact (Program.bind_of_eq (allocate_eq (.object []) memory)).trans (Program.bind_of_eq ran)
          · exact fun hides => Nat.lt_irrefl _ (inside _ hides)
          · rw [filling.keys, redactedKeys, ← keys]
            exact nodup

end LessonCalc.Event
