import InvertedIndex.Proofs.NamedHandles
import InvertedIndex.Proofs.SameReads

/-!
An open handle answers from the bytes of the file objects that it was opened on, whatever happens to
names, to times or to other files.
-/

set_option autoImplicit false
set_option relaxedAutoImplicit false

namespace InvertedIndex

variable {disk now : Disk}

namespace ChainTable

/-- The file of a table is as long as when the table was opened, and the number of buckets in its
header is the same. -/
structure Kept (table : ChainTable) (disk : Disk) : Prop where
  length : (disk.stamp table.source.stamp.object).length = table.source.length
  header : ∃ header, table.source.fetch TableHeader disk table.base = .ok header ∧
    header.bucketCount = table.bucketCount

def named (path : String) (table : ChainTable) : ChainTable :=
  { table with source := { table.source with path := path } }

theorem openAt_again {table : ChainTable}
    (opened : openAt table.source disk table.base = .ok table) {fresh : Source}
    (length : fresh.length = table.source.length) {header : TableHeader}
    (hheader : fresh.fetch TableHeader now table.base = .ok header)
    (same : header.bucketCount = table.bucketCount) :
    openAt fresh now table.base = .ok { table with source := fresh } := by
  unfold openAt at opened ⊢
  obtain ⟨before, -, opened⟩ := Outcome.bind_eq_ok.mp opened
  split at opened
  · cases opened
  · next some =>
    obtain ⟨⟨⟩, slots, opened⟩ := Outcome.bind_eq_ok.mp opened
    have count : before.bucketCount = table.bucketCount :=
      congrArg bucketCount (Except.ok.inj opened)
    have extent : fresh.ensureExtent (table.base + (Record.size TableHeader).toUInt64)
        (header.bucketCount.toUInt64 * (Record.size Slot).toUInt64) = .ok () := by
      rw [Source.ensureExtent, length, same, ← count]
      exact slots
    rw [hheader]
    show (if header.bucketCount = 0 then _ else _) = _
    rw [if_neg (by rwa [same, ← count]), extent, same]
    rfl

theorem Kept.reopened {table : ChainTable} (kept : table.Kept now) (opened : table.OpenedOn disk)
    {path : String} {location : Location} (access : Access)
    (found : now.find path = .ok (location, table.source.stamp.object)) :
    ∃ source fresh, Source.openPath now path access = .ok source ∧
      openAt source now table.base = .ok fresh ∧
      ∀ key, fresh.lookup now key = (table.named path).lookup now key := by
  obtain ⟨header, hheader, count⟩ := kept.header
  have hsource : Source.openPath now path access =
      .ok ⟨path, now.stamp table.source.stamp.object, access⟩ := Source.openPath_of_find found access
  have reads : Source.ReadsAs ⟨path, now.stamp table.source.stamp.object, access⟩ now
      (table.named path).source now :=
    .of_intact rfl kept.length rfl
      (Source.intact_of_openPath hsource (Disk.target_of_find found).2)
  have fetched : Source.fetch TableHeader ⟨path, now.stamp table.source.stamp.object, access⟩ now
      table.base = .ok header := by
    rw [reads.fetch]
    exact hheader
  have same : ChainTable.ReadsAs
      { table with source := ⟨path, now.stamp table.source.stamp.object, access⟩ } now
      (table.named path) now :=
    ⟨reads, rfl, rfl⟩
  exact ⟨_, _, hsource, openAt_again opened.header kept.length fetched count, same.lookup⟩

end ChainTable

namespace Session

variable {session : Session} {name : HandleName} {handle : Handle}

/-- No step of a run overwrites, in place, a file that a handle holds. -/
def Spares (handle : Handle) : Session → List Step → Prop
  | _, [] => True
  | session, next :: rest =>
    (∀ source ∈ handle.sources, session.overwritten next ≠ some source.stamp.object) ∧
      Spares handle (session.step next).1 rest

instance decidableSpares (handle : Handle) :
    (session : Session) → (steps : List Step) → Decidable (session.Spares handle steps)
  | _, [] => isTrue trivial
  | session, next :: rest =>
    have := decidableSpares handle (session.step next).1 rest
    inferInstanceAs (Decidable (_ ∧ _))

end Session

end InvertedIndex
