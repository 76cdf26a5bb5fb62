/-!
Journals: lists of entries that several handles may share. What is recorded through one handle is
seen through every handle of the same journal.
-/

set_option autoImplicit false
set_option relaxedAutoImplicit false

namespace ValvePipeline

abbrev Journal := Array String

namespace Journal

def occurrences (j : Journal) (entry : String) : Nat :=
  j.countP (· == entry)

end Journal

/-- Journals and handles on them. A handle is the number of its journal. -/
structure JournalShelf where
  journals : Array Journal := #[#[]]
  handles : Array Nat := #[0]

namespace JournalShelf

def entries (shelf : JournalShelf) (handle : Nat) : Journal :=
  ((shelf.handles[handle]?).bind (shelf.journals[·]?)).getD #[]

def update (shelf : JournalShelf) (handle : Nat) (f : Journal → Journal) : JournalShelf :=
  match shelf.handles[handle]? with
  | none => shelf
  | some i => { shelf with journals := shelf.journals.modify i f }

def record (shelf : JournalShelf) (handle : Nat) (entry : String) : JournalShelf :=
  shelf.update handle (·.push entry)

def clear (shelf : JournalShelf) (handle : Nat) : JournalShelf :=
  shelf.update handle fun _ => #[]

def share (shelf : JournalShelf) (handle : Nat) : JournalShelf :=
  { shelf with handles := shelf.handles.push ((shelf.handles[handle]?).getD 0) }

def add (shelf : JournalShelf) : JournalShelf :=
  { journals := shelf.journals.push #[], handles := shelf.handles.push shelf.journals.size }

end JournalShelf

end ValvePipeline
