import LessonCalc.Files.Tree

/-!
# Changes of file trees

What has to be done to the files of one tree so that they become those of a later one.  Folders come
before what they hold, and a file that has only grown is added to.
-/

namespace LessonCalc

/-- A change of what stands at a place. -/
inductive FileChange where
  | makeFolder (place : List String)
  | write (place : List String) (content : Bytes)
  | append (place : List String) (more : Bytes)
  deriving Repr, DecidableEq

namespace FileChange

/-- What turns the content of a file into another one. -/
def ofContent (place : List String) (before after : Bytes) : Option FileChange :=
  if before = after then none
  else if before.isPrefixOf after then some (append place (after.drop before.length))
  else some (write place after)

/-- What turns what stands at a place into something else. -/
def ofEntry (place : List String) : Option FileEntry → FileEntry → Option FileChange
  | some .folder, .folder => none
  | _, .folder => some (makeFolder place)
  | some (.file before), .file after => ofContent place before after
  | _, .file after => some (write place after)

end FileChange

/-- The changes that lead from a tree to a later one. -/
def FileTree.changesTo (t later : FileTree) : List FileChange :=
  later.entries.filterMap fun (place, entry) => FileChange.ofEntry place (t.entryAt? place) entry

end LessonCalc
