import InvertedIndex.Contents.Image
import InvertedIndex.Proofs.ReadingSteps

/-!
Hostile files and machine words. Each number is bounded by an extent that was checked before, and
the bounds travel along the procedures as what their parts ensure.
-/

set_option autoImplicit false
set_option relaxedAutoImplicit false

namespace InvertedIndex

/-- A table has a bucket, and its slots lie inside the source. -/
structure ChainTable.Roomy (table : ChainTable) : Prop where
  bucketCount : table.bucketCount ≠ 0
  slots : table.base.toNat + Record.size TableHeader + table.bucketCount.toNat * Record.size Slot ≤
    table.source.length.toNat

def OpenIndex.Roomy (index : OpenIndex) : Prop :=
  index.documents.buckets.Roomy ∧ index.words.buckets.Roomy

namespace Procedure

private theorem count_le_of_inside {offset count size length : Nat} (positive : 0 < size)
    (inside : offset + count * size ≤ length) : count ≤ length := by
  have bytes : count ≤ count * size := Nat.le_mul_of_pos_right count positive
  omega

theorem ensures_fetch (α : Type) [Record α] (source : Source) (offset : Nat) :
    (fetch α source offset).Ensures fun _ => offset + Record.size α ≤ source.length.toNat :=
  fun inside _ => inside

theorem ensures_fetchRun (α : Type) [Record α] (source : Source) (count offset : Nat)
    (inside : offset + count * Record.size α ≤ source.length.toNat) :
    (fetchRun α source count offset).Ensures fun records => records.length = count := by
  induction count generalizing offset with
  | zero => rfl
  | succ count ih =>
    have small := source.length.toNat_lt
    rw [Nat.succ_mul] at inside
    refine (ensures_fetch α source offset).bind fun record _ => ?_
    refine Ensures.number (by omega) ?_
    refine (ih (offset + Record.size α) (by omega)).bind fun records length => ?_
    exact congrArg Nat.succ length

theorem ensures_readWithin (source : Source) (offset length : Nat) :
    (readWithin source offset length).Ensures fun _ =>
      offset + length ≤ source.length.toNat := by
  refine (Ensures.ofResult fun _ => Source.inside_of_ensureExtentAt).bind fun _ inside => ?_
  have fits : length ≤ source.length.toNat := by omega
  exact Ensures.room fits fun _ _ => inside

theorem ensures_openTable (source : Source) (base : Offset) :
    (openTable source base).Ensures fun table => table.source = source ∧ table.Roomy := by
  refine (ensures_fetch TableHeader source base.toNat).bind fun header here => ?_
  by_cases zero : header.bucketCount = 0
  · rw [if_pos zero]
    trivial
  · rw [if_neg zero]
    have small := source.length.toNat_lt
    have length : header.bucketCount.toNat * Record.size Slot < 2 ^ 64 :=
      mul_size_lt header.bucketCount (by decide)
    refine Ensures.number length ?_
    -- The header was read, so what stands behind it starts inside the source.
    refine Ensures.number (by omega) ?_
    refine (Ensures.ofResult fun _ => Source.inside_of_ensureExtentAt).bind fun _ slots => ?_
    exact ⟨rfl, zero, slots⟩

theorem ensures_chain (table : ChainTable) (bucket : UInt64) (slot : Slot) :
    (chain table bucket slot).Ensures fun _ => True := by
  unfold chain
  by_cases empty : slot.chainLength = 0
  · rw [if_pos empty]
    trivial
  · rw [if_neg empty]
    have length : slot.chainLength.toNat * Record.size Link < 2 ^ 64 :=
      mul_size_lt slot.chainLength (by decide)
    refine Ensures.number length ?_
    cases extent : table.source.ensureExtentAt slot.chainOffset.toNat
        (slot.chainLength.toNat * Record.size Link) with
    | error fault => trivial
    | ok u =>
      have inside := Source.inside_of_ensureExtentAt extent
      have fits : slot.chainLength.toNat ≤ table.source.length.toNat :=
        count_le_of_inside (by decide) inside
      refine Ensures.room fits ?_
      refine (ensures_fetchRun Link table.source _ _ inside).bind fun _ _ => ?_
      trivial

theorem ensures_lookupChain {table : ChainTable} (roomy : table.Roomy) (key : UInt64) :
    (lookupChain table key).Ensures fun _ => True := by
  have slots := roomy.slots
  have small := table.source.length.toNat_lt
  have bucket := ChainTable.toNat_bucketOf_lt roomy.bucketCount key
  have before : (table.bucketOf key).toNat * Record.size Slot ≤
      table.bucketCount.toNat * Record.size Slot :=
    Nat.mul_le_mul_right _ bucket.le
  refine Ensures.number (by omega) ?_
  refine Ensures.number (by omega) ?_
  refine Ensures.number (by omega) ?_
  refine (ensures_fetch Slot table.source _).bind fun slot _ => ?_
  exact ensures_chain table _ slot

theorem ensures_searchDocument (source : Source) (id : DocumentId) (offsets : List Offset) :
    (searchDocument source id offsets).Ensures fun _ => True := by
  induction offsets with
  | nil => trivial
  | cons offset rest ih =>
    refine (ensures_fetch DocumentHeader source offset.toNat).bind fun header here => ?_
    have small := source.length.toNat_lt
    by_cases other : header.id ≠ id
    · rw [if_pos other]
      exact ih
    · rw [if_neg other]
      refine Ensures.number (by omega) ?_
      refine (ensures_readWithin source _ _).bind fun bytes _ => ?_
      cases String.fromUTF8? bytes <;> trivial

theorem ensures_lookupDocument {table : DocumentTable} (roomy : table.buckets.Roomy)
    (id : DocumentId) : (lookupDocument table id).Ensures fun _ => True :=
  (ensures_lookupChain roomy _).bind fun offsets _ => ensures_searchDocument _ id offsets

theorem ensures_resolve {table : DocumentTable} (roomy : table.buckets.Roomy) (id : DocumentId)
    (strict : Bool) : (resolve table id strict).Ensures fun _ => True := by
  refine (ensures_lookupDocument roomy id).bind fun found _ => ?_
  cases found with
  | some path => trivial
  | none => cases strict <;> trivial

theorem ensures_searchWord (source : Source) (word : String) (offsets : List Offset) :
    (searchWord source word offsets).Ensures fun found =>
      ∀ postings, found = some postings → postings.length ≤ source.length.toNat := by
  induction offsets with
  | nil =>
    intro postings none
    cases none
  | cons offset rest ih =>
    refine (ensures_fetch WordHeader source offset.toNat).bind fun header here => ?_
    have small := source.length.toNat_lt
    by_cases shape : header.wordLength.toNat ≠ word.utf8ByteSize
    · rw [if_pos shape]
      exact ih
    · rw [if_neg shape]
      refine Ensures.number (by omega) ?_
      refine (ensures_readWithin source _ _).bind fun stored inside => ?_
      by_cases other : stored ≠ word.toUTF8
      · rw [if_pos other]
        exact ih
      · rw [if_neg other]
        have length : header.postingCount.toNat * Record.size Posting < 2 ^ 64 :=
          mul_size_lt header.postingCount (by decide)
        refine Ensures.number (by omega) ?_
        refine Ensures.number length ?_
        cases extent : source.ensureExtentAt
            (offset.toNat + Record.size WordHeader + header.wordLength.toNat)
            (header.postingCount.toNat * Record.size Posting) with
        | error fault => trivial
        | ok u =>
          have entries := Source.inside_of_ensureExtentAt extent
          have fits : header.postingCount.toNat ≤ source.length.toNat :=
            count_le_of_inside (by decide) entries
          refine Ensures.room fits ?_
          refine (ensures_fetchRun Posting source _ _ entries).bind fun entries length => ?_
          intro postings same
          obtain rfl := Option.some.inj same
          exact length.trans_le fits

theorem ensures_lookupWord {table : WordTable} (roomy : table.buckets.Roomy) (word : String) :
    (lookupWord table word).Ensures fun found =>
      ∀ postings, found = some postings →
        postings.length ≤ table.buckets.source.length.toNat :=
  (ensures_lookupChain roomy _).bind fun offsets _ => ensures_searchWord _ word offsets

theorem ensures_foldChunks (source : Source) (chunk count offset : Nat) (remainder : UInt32)
    (inside : count = 0 ∨ offset ≤ source.length.toNat) :
    (foldChunks source chunk count offset remainder).Ensures fun _ => True := by
  induction count generalizing offset remainder with
  | zero => trivial
  | succ count ih =>
    have here : offset ≤ source.length.toNat := inside.resolve_left (Nat.succ_ne_zero count)
    have small := source.length.toNat_lt
    intro _ bytes
    refine Ensures.number (by omega) ?_
    exact ih _ _ (Or.inr (by omega))

theorem ensures_checksum (source : Source) : (checksum source).Ensures fun _ => True := by
  refine Ensures.bind (ensures_foldChunks source _ _ _ _ (source.chunkCount_eq_zero_or _ _)) ?_
  intro _ _
  trivial

theorem ensures_openFile (path : String) (strict : Bool) (access : Access) :
    (openFile path strict access).Ensures fun _ => True := by
  intro source _ _
  refine (ensures_fetch FileHeader source 0).bind fun header _ => ?_
  refine (Ensures.ofLogged fun _ _ => trivial).bind fun _ _ => ?_
  refine (Ensures.ofResult fun _ _ => trivial).bind fun _ _ => ?_
  refine (Ensures.ofResult fun _ _ => trivial).bind fun _ _ => ?_
  have checked : (ensureChecksum source header strict).Ensures fun _ => True := by
    cases strict with
    | false => trivial
    | true =>
      refine (ensures_checksum source).bind fun found _ => ?_
      split <;> trivial
  exact checked.bind fun _ _ => trivial

theorem ensures_reopen (file : IndexFile) (base : Offset) :
    (reopen file base).Ensures fun table =>
      table.source = ⟨file.path, file.stamp, file.access⟩ ∧ table.Roomy := by
  intro source path access
  dsimp only
  split
  · trivial
  · next same =>
    refine (ensures_openTable source base).imp fun table opened => ⟨?_, opened.2⟩
    rw [opened.1, ← path, ← access, ← not_not.mp same]

theorem ensures_openIndex (path : String) (strict : Bool) (access : Access) :
    (openIndex path strict access).Ensures OpenIndex.Roomy := by
  refine (ensures_openFile path strict access).bind fun file _ => ?_
  refine (ensures_reopen file _).bind fun documents hdocuments => ?_
  refine (ensures_reopen file _).bind fun words hwords => ?_
  exact ⟨hdocuments.2, hwords.2⟩

theorem ensures_start (settings : Settings) :
    (start settings).Ensures fun engine => ∀ index ∈ engine.indexes, index.Roomy := by
  refine (Ensures.ofResult fun _ _ => trivial).bind fun _ _ => ?_
  refine (Ensures.mapM fun path _ => ensures_openIndex path _ _).bind fun indexes opened => ?_
  exact opened

theorem ensures_narrow (counts : Std.TreeMap DocumentId UInt32) {bound : Nat}
    (small : bound + (2 ^ 32 - 1) < 2 ^ 64) (candidates : List (DocumentId × Nat))
    (bounded : ∀ candidate ∈ candidates, candidate.2 ≤ bound) :
    (narrow counts candidates).Ensures fun left =>
      ∀ candidate ∈ left, candidate.2 ≤ bound + (2 ^ 32 - 1) := by
  induction candidates with
  | nil =>
    intro candidate mem
    cases mem
  | cons candidate rest ih =>
    obtain ⟨id, rank⟩ := candidate
    obtain ⟨first, others⟩ := List.forall_mem_cons.mp bounded
    unfold narrow
    cases counts[id]? with
    | none => exact ih others
    | some count =>
      have added := count.toNat_lt
      have within : rank + count.toNat ≤ bound + (2 ^ 32 - 1) := by omega
      refine Ensures.number (by omega) ?_
      refine (ih others).bind fun left hleft => ?_
      exact List.forall_mem_cons.mpr ⟨within, hleft⟩

/-- After `done` words a rank is at most `done * (2 ^ 32 - 1)`; the longest query just fits. -/
theorem ensures_narrowBy {table : WordTable} (roomy : table.buckets.Roomy) (done : Nat)
    (candidates : List (DocumentId × Nat)) (words : List String)
    (room : done + words.length ≤ longestQuery)
    (bounded : ∀ candidate ∈ candidates, candidate.2 ≤ done * (2 ^ 32 - 1)) :
    (narrowBy table candidates words).Ensures fun _ => True := by
  induction words generalizing candidates done with
  | nil => cases candidates <;> trivial
  | cons word rest ih =>
    cases candidates with
    | nil => trivial
    | cons candidate candidates =>
      refine (ensures_lookupWord roomy word).bind fun found fits => ?_
      cases found with
      | none => trivial
      | some postings =>
        refine Ensures.room (fits postings rfl) ?_
        have next : done * (2 ^ 32 - 1) + (2 ^ 32 - 1) = (done + 1) * (2 ^ 32 - 1) :=
          (Nat.succ_mul done (2 ^ 32 - 1)).symm
        have words : done + 1 ≤ longestQuery := by
          rw [List.length_cons] at room
          omega
        have small : done * (2 ^ 32 - 1) + (2 ^ 32 - 1) < 2 ^ 64 := by
          calc done * (2 ^ 32 - 1) + (2 ^ 32 - 1)
              _ = (done + 1) * (2 ^ 32 - 1) := next
              _ ≤ longestQuery * (2 ^ 32 - 1) := Nat.mul_le_mul_right _ words
              _ < 2 ^ 64 := by decide
        refine (ensures_narrow _ small _ bounded).bind fun left hleft => ?_
        rw [List.length_cons] at room
        rw [next] at hleft
        exact ih (done + 1) left (by omega) hleft

theorem ensures_matching {table : WordTable} (roomy : table.buckets.Roomy) (words : List String)
    (room : words.length ≤ longestQuery) : (matching table words).Ensures fun _ => True := by
  cases words with
  | nil => trivial
  | cons word rest =>
    refine (ensures_lookupWord roomy word).bind fun found fits => ?_
    cases found with
    | none => trivial
    | some postings =>
      refine Ensures.room (fits postings rfl) ?_
      rw [List.length_cons] at room
      refine ensures_narrowBy roomy 1 _ rest (by omega) ?_
      rw [Match.exact_ofEntries]
      intro candidate mem
      have bound := Postings.rank_le_of_mem_agreement mem
      rwa [List.length_singleton] at bound

theorem ensures_query {engine : Engine} (roomy : ∀ index ∈ engine.indexes, index.Roomy)
    {words : List String} (room : words.length ≤ longestQuery) :
    (query engine words).Ensures fun _ => True := by
  unfold query
  split
  · trivial
  · refine (Ensures.mapM (Q := fun _ => True) fun index mem => ?_).bind fun _ _ => trivial
    refine (ensures_matching (roomy index mem).2 words room).bind fun found _ => ?_
    refine (Ensures.mapM (Q := fun _ => True) fun entry _ => ?_).imp fun _ _ => trivial
    exact (ensures_resolve (roomy index mem).1 entry.1 _).bind fun _ _ => trivial

/-- A procedure takes a reader apart, and however the disk changes from one of its reads to the next,
it keeps inside machine words and inside its sources. -/
structure KeepsInside {α : Type} (p : Procedure α) (reader : Disk → Logged α) : Prop where
  reader : ∀ disk, p.onDisk disk = reader disk
  exact : ∀ disks, Run.Exact (p.run .machine disks) (p.run .unbounded disks)

theorem Ensures.keepsInside {α : Type} {P : α → Prop} {p : Procedure α} (h : p.Ensures P)
    {reader : Disk → Logged α} (same : ∀ disk, p.onDisk disk = reader disk) : p.KeepsInside reader :=
  ⟨same, fun disks => (h.run disks).1⟩

end Procedure

def ChainTable.Opened (table : ChainTable) : Prop :=
  ∃ source base disks,
    ((Procedure.openTable source base).run .machine disks).outcome.result = .ok table

def Engine.Opened (engine : Engine) : Prop :=
  ∃ settings disks, ((Procedure.start settings).run .machine disks).outcome.result = .ok engine

theorem ChainTable.opened_of_openAt {source : Source} {disk : Disk} {base : Offset}
    {table : ChainTable} (h : ChainTable.openAt source disk base = .ok table) : table.Opened := by
  have run := congrArg Logged.result (Procedure.onDisk_openTable disk source base)
  exact ⟨source, base, fun _ => disk, run.trans h⟩

theorem Engine.opened_of_start {disk : Disk} {settings : Settings} {engine : Engine}
    (h : (Engine.start disk settings).result = .ok engine) : engine.Opened := by
  have run := congrArg Logged.result (Procedure.onDisk_start disk settings)
  exact ⟨settings, fun _ => disk, run.trans h⟩

theorem ChainTable.Opened.roomy {table : ChainTable} (h : table.Opened) : table.Roomy := by
  obtain ⟨source, base, disks, hok⟩ := h
  exact (((Procedure.ensures_openTable source base).run disks).2 table hok).2

theorem Engine.Opened.roomy {engine : Engine} (h : engine.Opened) :
    ∀ index ∈ engine.indexes, index.Roomy := by
  obtain ⟨settings, disks, hok⟩ := h
  exact ((Procedure.ensures_start settings).run disks).2 engine hok

namespace Procedure

/-- Whatever bytes the files hold, and though they change from one read to the next: opening a table,
looking up in one that was opened, opening an index file and asking an engine that was started work
out the same with machine words as without a bound. -/
theorem readers_keep_inside :
    (∀ source base, (openTable source base).KeepsInside fun disk =>
      liftM (ChainTable.openAt source disk base)) ∧
    (∀ table : ChainTable, table.Opened →
      (∀ key, (lookupChain table key).KeepsInside fun disk => table.lookup disk key) ∧
      (∀ id, (lookupDocument ⟨table⟩ id).KeepsInside fun disk =>
        DocumentTable.lookup ⟨table⟩ disk id) ∧
      (∀ id strict, (resolve ⟨table⟩ id strict).KeepsInside fun disk =>
        DocumentTable.resolve ⟨table⟩ disk id strict) ∧
      (∀ word, (lookupWord ⟨table⟩ word).KeepsInside fun disk =>
        WordTable.lookup ⟨table⟩ disk word)) ∧
    (∀ path strict access, (openFile path strict access).KeepsInside fun disk =>
      IndexFile.openPath disk path strict access) ∧
    (∀ file base, (reopen file base).KeepsInside fun disk => liftM (file.reopen disk base)) ∧
    (∀ settings, (start settings).KeepsInside fun disk => Engine.start disk settings) ∧
    (∀ engine words, engine.Opened → words.length ≤ 2 ^ 32 + 1 →
      (query engine words).KeepsInside fun disk => engine.query disk words) := by
  refine ⟨?_, fun table opened => ⟨?_, ?_, ?_, ?_⟩, ?_, ?_, ?_, ?_⟩
  · intro source base
    exact (ensures_openTable source base).keepsInside fun disk => onDisk_openTable disk source base
  · intro key
    exact (ensures_lookupChain opened.roomy key).keepsInside fun disk =>
      onDisk_lookupChain disk table key
  · intro id
    exact (@ensures_lookupDocument ⟨table⟩ opened.roomy id).keepsInside fun disk =>
      onDisk_lookupDocument disk ⟨table⟩ id
  · intro id strict
    exact (@ensures_resolve ⟨table⟩ opened.roomy id strict).keepsInside fun disk =>
      onDisk_resolve disk ⟨table⟩ id strict
  · intro word
    exact (@ensures_lookupWord ⟨table⟩ opened.roomy word).keepsInside fun disk =>
      onDisk_lookupWord disk ⟨table⟩ word
  · intro path strict access
    exact (ensures_openFile path strict access).keepsInside fun disk =>
      onDisk_openFile disk path strict access
  · intro file base
    exact (ensures_reopen file base).keepsInside fun disk => onDisk_reopen disk file base
  · intro settings
    exact (ensures_start settings).keepsInside fun disk => onDisk_start disk settings
  · intro engine words opened room
    exact (ensures_query opened.roomy room).keepsInside fun disk => onDisk_query disk engine words

/-- The disk with the sample after every byte of it was overwritten by the highest one. -/
def ravagedDisk : Disk :=
  sampleDisk.store 0 ⟨⟨Array.replicate 192 0xFF⟩, 0⟩

/-- Tables opened on the sample, which is ravaged at once, or while a query reads its postings. -/
theorem readers_keep_inside_ravaged :
    ∃ (table : ChainTable) (engine : Engine), table.Opened ∧ engine.Opened ∧
      ["b"].length ≤ 2 ^ 32 + 1 ∧
      Run.Exact ((lookupChain table 7).run .machine fun _ => ravagedDisk)
        ((lookupChain table 7).run .unbounded fun _ => ravagedDisk) ∧
      ((lookupChain table 7).run .unbounded fun _ => ravagedDisk).numbers =
        [144, 12, 156, (2 ^ 32 - 1) * 8] ∧
      Run.Exact
        ((query engine ["b"]).run .machine fun n => if n < 4 then sampleDisk else ravagedDisk)
        ((query engine ["b"]).run .unbounded fun n => if n < 4 then sampleDisk else ravagedDisk) ∧
      ((query engine ["b"]).run .machine fun n =>
          if n < 4 then sampleDisk else ravagedDisk).outcome.result =
        .error (.corruption (.chainOverrun "whole" 1 (2 ^ 32 - 1) (2 ^ 64 - 1))) := by
  let source : Source := ⟨"whole", sampleDisk.stamp (.file 0), .seek⟩
  have header : ChainTable.openAt source sampleDisk 140 = .ok ⟨source, 140, 2⟩ := by
    decide +kernel
  have table := ChainTable.opened_of_openAt header
  have asked : ((Engine.start sampleDisk ⟨["whole"], false, true⟩).result >>= fun engine =>
      .ok ((query engine ["b"]).run .machine fun n =>
        if n < 4 then sampleDisk else ravagedDisk).outcome.result) =
      .ok (.error (.corruption (.chainOverrun "whole" 1 (2 ^ 32 - 1) (2 ^ 64 - 1)))) := by
    decide +kernel
  obtain ⟨engine, started, answer⟩ := Outcome.bind_eq_ok.mp asked
  have opened : engine.Opened := Engine.opened_of_start started
  have room : ["b"].length ≤ 2 ^ 32 + 1 := by decide
  obtain ⟨-, lookups, -, -, -, queries⟩ := readers_keep_inside
  refine ⟨_, engine, table, opened, room, ?_, by decide +kernel, ?_, Except.ok.inj answer⟩
  · exact ((lookups _ table).1 7).exact _
  · exact (queries engine ["b"] opened room).exact _

end Procedure

end InvertedIndex
