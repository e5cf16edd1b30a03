import InvertedIndex.Contents.Image
import InvertedIndex.Proofs.OpenHandles
import InvertedIndex.Proofs.ReadingSteps

/-!
Which faults there are once the files are open, whatever the files hold and however they change from
one read to the next.
-/

set_option autoImplicit false
set_option relaxedAutoImplicit false

namespace InvertedIndex

variable {α β : Type}

/-- Faults that come from the bytes of a file: there are too few of them, or they are damaged. -/
inductive Fault.FromBytes : Fault → Prop
  | truncated (offset : Offset) (length : UInt64) : FromBytes (.truncated offset length)
  | corruption (damage : Damage) : FromBytes (.corruption damage)

theorem Fault.isDamage_of_fromBytes {fault : Fault}
    (h : fault.FromBytes ∨ ∃ id, fault = .missingDocument id) :
    fault.isDamage = true ∧ fault.isMisuse = false := by
  rcases h with bytes | ⟨id, rfl⟩
  · cases bytes <;> exact ⟨rfl, rfl⟩
  · exact ⟨rfl, rfl⟩

namespace Source

variable {source : Source} {disk : Disk}

theorem ensureExtent_eq_error {offset : Offset} {length : UInt64} {fault : Fault}
    (failed : source.ensureExtent offset length = .error fault) : fault = .truncated offset length := by
  unfold ensureExtent at failed
  split at failed
  · cases failed
  · exact (Except.error.inj failed).symm

theorem read_eq_error (regular : source.Regular) {offset : Offset} {length : UInt64} {fault : Fault}
    (failed : source.read disk offset length = .error fault) : fault = .truncated offset length := by
  unfold read at failed
  cases access : source.access with
  | seek =>
    rw [access] at failed
    rcases Outcome.bind_eq_error.mp failed with outside | ⟨_, -, failed⟩
    · exact ensureExtent_eq_error outside
    · have file : ¬source.stamp.object.isFolder = true := Bool.eq_false_iff.mp regular
      simp only [if_neg file] at failed
      split at failed
      · cases failed
      · exact (Except.error.inj failed).symm
  | mapped =>
    simp only [access, readMemory] at failed
    split at failed
    · cases failed
    · exact (Except.error.inj failed).symm

theorem fromBytes_of_ensureExtentAt {offset length : Nat} {fault : Fault}
    (failed : source.ensureExtentAt offset length = .error fault) : fault.FromBytes := by
  unfold ensureExtentAt at failed
  split at failed
  · rw [ensureExtent_eq_error failed]
    exact .truncated _ _
  · cases failed
    exact .truncated _ _

theorem fromBytes_of_readAt (regular : source.Regular) {offset length : Nat} {fault : Fault}
    (failed : source.readAt disk offset length = .error fault) : fault.FromBytes := by
  unfold readAt at failed
  split at failed
  · rw [read_eq_error regular failed]
    exact .truncated _ _
  · cases failed
    exact .truncated _ _

/-- What the operating system makes of a read: no file reaches as far as `2 ^ 63`, so it refuses to go
there, and it gives no bytes of a folder and none from behind the end of a file. -/
def seekAndRead (source : Source) (disk : Disk) (offset : Offset) (length : UInt64) :
    Except Fault ByteArray :=
  let stop := offset.toNat + length.toNat
  if 2 ^ 63 ≤ offset.toNat then .error (.io (.other "Invalid argument (os error 22)"))
  else if length = 0 ∨ stop ≤ (source.bytes disk).size then
    .ok ((source.bytes disk).extract offset.toNat stop)
  else if source.stamp.object.isFolder then .error (.io .isDirectory)
  else .error (.truncated offset length)

/-- The extent is checked before the file is asked, so the file never refuses an offset. -/
theorem readFile_eq_seekAndRead (possible : source.length.toNat < 2 ^ 63) (offset : Offset)
    (length : UInt64) :
    source.readFile disk offset length =
      source.ensureExtent offset length >>= fun _ => source.seekAndRead disk offset length := by
  by_cases inside : offset.toNat + length.toNat ≤ source.length.toNat
  · have reachable : ¬2 ^ 63 ≤ offset.toNat := by omega
    rw [readFile, ensureExtent_eq_ok.mpr inside, seekAndRead, if_neg reachable]
    rfl
  · rw [readFile, ensureExtent, if_neg inside]
    rfl

end Source

def Engine.Regular (engine : Engine) : Prop :=
  ∀ index ∈ engine.indexes,
    index.documents.buckets.source.Regular ∧ index.words.buckets.source.Regular

theorem Engine.regular_of_start {disk : Disk} {settings : Settings} {engine : Engine}
    (h : (Engine.start disk settings).result = .ok engine) : engine.Regular := by
  have opened := (Engine.openedOn_of_start h).tables
  simp only [Handle.tables, List.mem_flatMap, List.mem_pair] at opened
  intro index mem
  exact ⟨ChainTable.regular_of_openAt (opened _ ⟨index, mem, Or.inl rfl⟩).header,
    ChainTable.regular_of_openAt (opened _ ⟨index, mem, Or.inr rfl⟩).header⟩

namespace Procedure

/-- However the disk changes from one read to the next, a run fails only as some kind of fault. The kind
may depend on the disks from the start of the run on. -/
def FailsAs (p : Procedure α) (kind : (Nat → Disk) → Fault → Prop) : Prop :=
  ∀ disks fault, (p.run .machine disks).outcome.result = .error fault → kind disks fault

theorem run_bind_eq_error {p : Procedure α} {f : α → Procedure β} {disks : Nat → Disk} {fault : Fault}
    (failed : ((p >>= f).run .machine disks).outcome.result = .error fault) :
    (p.run .machine disks).outcome.result = .error fault ∨
      ∃ a skip, (p.run .machine disks).outcome.result = .ok a ∧
        ((f a).run .machine fun n => disks (n + skip)).outcome.result = .error fault := by
  change ((p.andThen f).run .machine disks).outcome.result = .error fault at failed
  -- Each read and each opening uses up one disk, so the disks are general and `skip` counts these.
  induction p generalizing disks with
  | done a => exact Or.inr ⟨a, 0, rfl, failed⟩
  | stop fault =>
    cases failed
    exact Or.inl rfl
  | report event next ih => exact ih failed
  | compute number next ih => exact ih _ failed
  | reserve count source next ih => exact ih failed
  | find path access next ih =>
    simp only [andThen, run] at failed ⊢
    cases opened : Source.openPath (disks 0) path access with
    | error fault =>
      rw [opened] at failed
      cases failed
      exact Or.inl rfl
    | ok source =>
      rw [opened] at failed
      rcases ih source failed with first | ⟨a, skip, passed, rest⟩
      · exact Or.inl first
      · exact Or.inr ⟨a, skip + 1, passed, rest⟩
  | read source offset length next ih =>
    simp only [andThen, run] at failed ⊢
    cases given : source.readAt (disks 0) offset length with
    | error fault =>
      rw [given] at failed
      cases failed
      exact Or.inl rfl
    | ok bytes =>
      rw [given] at failed
      rcases ih bytes failed with first | ⟨a, skip, passed, rest⟩
      · exact Or.inl first
      · exact Or.inr ⟨a, skip + 1, passed, rest⟩

/-- A kind that holds of the disks that are left holds of all of them. -/
def Lasting (kind : (Nat → Disk) → Fault → Prop) : Prop :=
  ∀ disks skip fault, kind (fun n => disks (n + skip)) fault → kind disks fault

theorem lasting_const (kind : Fault → Prop) : Lasting fun _ => kind :=
  fun _ _ _ held => held

namespace FailsAs

variable {kind other : (Nat → Disk) → Fault → Prop}

theorem imp {p : Procedure α} (h : p.FailsAs kind)
    (weaken : ∀ disks fault, kind disks fault → other disks fault) : p.FailsAs other :=
  fun disks fault failed => weaken disks fault (h disks fault failed)

theorem pure (a : α) : (pure a : Procedure α).FailsAs kind := by
  intro disks fault failed
  cases failed

theorem stop {fault : Fault} (held : ∀ disks, kind disks fault) :
    (stop fault : Procedure α).FailsAs kind := by
  intro disks fault' failed
  cases failed
  exact held disks

theorem report {event : Event} {p : Procedure α} (h : p.FailsAs kind) :
    (report event p).FailsAs kind :=
  h

theorem number {n : Nat} {f : Nat → Procedure β} (rest : ∀ n, (f n).FailsAs kind) :
    (number n >>= f).FailsAs kind :=
  rest _

theorem room {count : Nat} {source : Source} {f : Unit → Procedure β}
    (rest : (f ()).FailsAs kind) : (room count source >>= f).FailsAs kind :=
  rest

theorem ofResult {x : Except Fault α}
    (held : ∀ disks fault, x = .error fault → kind disks fault) : (ofResult x).FailsAs kind := by
  cases x with
  | error fault => exact stop fun disks => held disks fault rfl
  | ok a => exact pure a

theorem bind (lasting : Lasting kind) {p : Procedure α} {f : α → Procedure β} (h : p.FailsAs kind)
    (rest : ∀ a, (f a).FailsAs kind) : (p >>= f).FailsAs kind := by
  intro disks fault failed
  rcases run_bind_eq_error failed with first | ⟨a, skip, -, second⟩
  · exact h disks fault first
  · exact lasting disks skip fault (rest a _ fault second)

theorem mapM (lasting : Lasting kind) {f : α → Procedure β} {as : List α}
    (each : ∀ a ∈ as, (f a).FailsAs kind) : (as.mapM f).FailsAs kind := by
  induction as with
  | nil => exact pure []
  | cons a as ih =>
    rw [List.mapM_cons]
    refine bind lasting (each a (List.mem_cons_self ..)) fun b => ?_
    refine bind lasting (ih fun a' mem => each a' (List.mem_cons_of_mem _ mem)) fun bs => ?_
    exact pure (b :: bs)

end FailsAs

theorem failsAs_bytes {source : Source} (regular : source.Regular) (offset length : Nat) :
    (bytes source offset length).FailsAs fun _ => Fault.FromBytes := by
  intro disks fault failed
  simp only [bytes, run] at failed
  cases given : source.readAt (disks 0) offset length with
  | error fault' =>
    rw [given] at failed
    cases failed
    exact Source.fromBytes_of_readAt regular given
  | ok bytes =>
    rw [given] at failed
    cases failed

theorem failsAs_fetch (α : Type) [Record α] {source : Source} (regular : source.Regular)
    (offset : Nat) :
    (fetch α source offset).FailsAs fun _ => Fault.FromBytes :=
  .bind (lasting_const _) (failsAs_bytes regular offset _) fun _ => .pure _

theorem failsAs_fetchRun (α : Type) [Record α] {source : Source} (regular : source.Regular)
    (count offset : Nat) :
    (fetchRun α source count offset).FailsAs fun _ => Fault.FromBytes := by
  induction count generalizing offset with
  | zero => exact .pure []
  | succ count ih =>
    refine .bind (lasting_const _) (failsAs_fetch α regular offset) fun record => ?_
    refine .number fun next => ?_
    exact .bind (lasting_const _) (ih next) fun records => .pure _

theorem failsAs_readWithin {source : Source} (regular : source.Regular) (offset length : Nat) :
    (readWithin source offset length).FailsAs fun _ => Fault.FromBytes := by
  refine .bind (lasting_const _) (.ofResult fun _ _ => Source.fromBytes_of_ensureExtentAt) fun _ => ?_
  exact .room (failsAs_bytes regular offset length)

theorem failsAs_chain {table : ChainTable} (regular : table.source.Regular) (bucket : UInt64)
    (slot : Slot) :
    (chain table bucket slot).FailsAs fun _ => Fault.FromBytes := by
  unfold chain
  by_cases empty : slot.chainLength = 0
  · rw [if_pos empty]
    exact .pure []
  · rw [if_neg empty]
    refine .number fun length => ?_
    cases table.source.ensureExtentAt slot.chainOffset.toNat length with
    | error fault => exact .stop fun _ => .corruption _
    | ok u =>
      refine .room ?_
      exact .bind (lasting_const _) (failsAs_fetchRun Link regular _ _) fun links => .pure _

theorem failsAs_lookupChain {table : ChainTable} (regular : table.source.Regular) (key : UInt64) :
    (lookupChain table key).FailsAs fun _ => Fault.FromBytes := by
  refine .number fun slots => .number fun before => .number fun place => ?_
  refine .bind (lasting_const _) (failsAs_fetch Slot regular place) fun slot => ?_
  exact .report (failsAs_chain regular _ slot)

theorem failsAs_searchDocument {source : Source} (regular : source.Regular) (id : DocumentId)
    (offsets : List Offset) :
    (searchDocument source id offsets).FailsAs fun _ => Fault.FromBytes := by
  induction offsets with
  | nil => exact .pure none
  | cons offset rest ih =>
    refine .bind (lasting_const _) (failsAs_fetch DocumentHeader regular _) fun header => ?_
    by_cases other : header.id ≠ id
    · rw [if_pos other]
      exact ih
    · rw [if_neg other]
      refine .number fun start => ?_
      refine .bind (lasting_const _) (failsAs_readWithin regular start _) fun bytes => ?_
      cases String.fromUTF8? bytes with
      | none => exact .stop fun _ => .corruption _
      | some path => exact .pure (some path)

theorem failsAs_lookupDocument {table : DocumentTable} (regular : table.buckets.source.Regular)
    (id : DocumentId) :
    (lookupDocument table id).FailsAs fun _ => Fault.FromBytes :=
  .bind (lasting_const _) (failsAs_lookupChain regular _) fun offsets =>
    failsAs_searchDocument regular id offsets

theorem failsAs_searchWord {source : Source} (regular : source.Regular) (word : String)
    (offsets : List Offset) :
    (searchWord source word offsets).FailsAs fun _ => Fault.FromBytes := by
  induction offsets with
  | nil => exact .pure none
  | cons offset rest ih =>
    refine .bind (lasting_const _) (failsAs_fetch WordHeader regular _) fun header => ?_
    by_cases shape : header.wordLength.toNat ≠ word.utf8ByteSize
    · rw [if_pos shape]
      exact ih
    · rw [if_neg shape]
      refine .number fun wordOffset => ?_
      refine .bind (lasting_const _) (failsAs_readWithin regular wordOffset _) fun stored => ?_
      by_cases other : stored ≠ word.toUTF8
      · rw [if_pos other]
        exact ih
      · rw [if_neg other]
        refine .number fun start => .number fun length => ?_
        cases source.ensureExtentAt start length with
        | error fault => exact .stop fun _ => .corruption _
        | ok u =>
          refine .room ?_
          exact .bind (lasting_const _) (failsAs_fetchRun Posting regular _ start) fun entries => .pure _

theorem failsAs_lookupWord {table : WordTable} (regular : table.buckets.source.Regular)
    (word : String) :
    (lookupWord table word).FailsAs fun _ => Fault.FromBytes :=
  .bind (lasting_const _) (failsAs_lookupChain regular _) fun offsets =>
    failsAs_searchWord regular word offsets

theorem failsAs_narrow (kind : (Nat → Disk) → Fault → Prop) (lasting : Lasting kind)
    (counts : Std.TreeMap DocumentId UInt32) (candidates : List (DocumentId × Nat)) :
    (narrow counts candidates).FailsAs kind := by
  induction candidates with
  | nil => exact .pure []
  | cons candidate rest ih =>
    unfold narrow
    cases counts[candidate.1]? with
    | none => exact ih
    | some count => exact .number fun sum => .bind lasting ih fun others => .pure _

theorem failsAs_narrowBy {table : WordTable} (regular : table.buckets.source.Regular)
    (candidates : List (DocumentId × Nat)) (words : List String) :
    (narrowBy table candidates words).FailsAs fun _ => Fault.FromBytes := by
  induction words generalizing candidates with
  | nil => cases candidates <;> exact .pure _
  | cons word rest ih =>
    cases candidates with
    | nil => exact .pure []
    | cons candidate candidates =>
      refine .bind (lasting_const _) (failsAs_lookupWord regular word) fun found => ?_
      cases found with
      | none => exact .pure []
      | some postings =>
        refine .room ?_
        exact .bind (lasting_const _) (failsAs_narrow _ (lasting_const _) _ _) ih

theorem failsAs_matching {table : WordTable} (regular : table.buckets.source.Regular)
    (words : List String) :
    (matching table words).FailsAs fun _ => Fault.FromBytes := by
  cases words with
  | nil => exact .pure []
  | cons word rest =>
    refine .bind (lasting_const _) (failsAs_lookupWord regular word) fun found => ?_
    cases found with
    | none => exact .pure []
    | some postings => exact .room (failsAs_narrowBy regular _ rest)

/-- The table of an index holds no document of a number, as the disks that follow have it. -/
def Lacks (table : DocumentTable) (id : DocumentId) (disks : Nat → Disk) : Prop :=
  ((lookupDocument table id).run .machine disks).outcome.result = .ok none

theorem failsAs_resolve {table : DocumentTable} (regular : table.buckets.source.Regular)
    (id : DocumentId) (strict : Bool) :
    (resolve table id strict).FailsAs fun disks fault => fault.FromBytes ∨
      strict = true ∧ fault = .missingDocument id ∧ Lacks table id disks := by
  intro disks fault failed
  rcases run_bind_eq_error failed with sought | ⟨found, skip, absent, failed⟩
  · exact Or.inl (failsAs_lookupDocument regular id disks fault sought)
  · cases found with
    | some path => cases failed
    | none =>
      cases strict with
      | false => cases failed
      | true =>
        cases failed
        exact Or.inr ⟨rfl, rfl, absent⟩

/-- Faults of a query for some words: they come from bytes, or a document of some file is sought in
strict mode and is not there at that point. -/
def Unanswered (engine : Engine) (disks : Nat → Disk) (fault : Fault) : Prop :=
  fault.FromBytes ∨ engine.strict = true ∧ ∃ index ∈ engine.indexes, ∃ id skip,
    fault = .missingDocument id ∧ Lacks index.documents id fun n => disks (n + skip)

theorem lasting_unanswered (engine : Engine) : Lasting (Unanswered engine) := by
  intro disks skip fault held
  rcases held with bytes | ⟨strict, index, mem, id, skip', missing, lacks⟩
  · exact Or.inl bytes
  · refine Or.inr ⟨strict, index, mem, id, skip' + skip, missing, ?_⟩
    simpa only [Nat.add_assoc] using lacks

theorem failsAs_rows {engine : Engine} (regular : engine.Regular) {index : OpenIndex}
    (mem : index ∈ engine.indexes) (words : List String) :
    (rows index engine.strict words).FailsAs (Unanswered engine) := by
  have lasting := lasting_unanswered engine
  obtain ⟨documents, sought⟩ := regular index mem
  refine .bind lasting ((failsAs_matching sought words).imp fun _ _ => Or.inl) fun found => ?_
  refine .report (.mapM lasting fun entry _ => .bind lasting ?_ fun name => .pure _)
  refine (failsAs_resolve documents entry.1 engine.strict).imp fun disks fault held => ?_
  rcases held with bytes | ⟨strict, missing, lacks⟩
  · exact Or.inl bytes
  · exact Or.inr ⟨strict, index, mem, entry.1, 0, missing, lacks⟩

theorem failsAs_query {engine : Engine} (regular : engine.Regular) {words : List String}
    (nonempty : words ≠ []) : (query engine words).FailsAs (Unanswered engine) := by
  have lasting := lasting_unanswered engine
  unfold query
  rw [if_neg nonempty]
  exact .bind lasting (.mapM lasting fun index mem => failsAs_rows regular mem words) fun rows => .pure _

theorem Unanswered.ne_emptyQuery {engine : Engine} {disks : Nat → Disk} {fault : Fault}
    (held : Unanswered engine disks fault) : fault ≠ .emptyQuery := by
  rcases held with bytes | ⟨-, -, -, -, -, rfl, -⟩
  · cases bytes <;> exact nofun
  · exact nofun

theorem run_query_eq_emptyQuery {engine : Engine} (regular : engine.Regular) {words : List String}
    {disks : Nat → Disk} :
    ((query engine words).run .machine disks).outcome.result = .error .emptyQuery ↔ words = [] := by
  constructor
  · intro failed
    by_contra nonempty
    exact (failsAs_query regular nonempty disks _ failed).ne_emptyQuery rfl
  · rintro rfl
    rfl

/-- A procedure takes a reader apart, and fails only as some kind of fault. -/
structure Explains (p : Procedure α) (reader : Disk → Logged α)
    (kind : (Nat → Disk) → Fault → Prop) : Prop where
  reader : ∀ disk, p.onDisk disk = reader disk
  fails : p.FailsAs kind

/-- What can go wrong once the files are open; and tables and engines are opened on files only. A read
fails only for want of bytes, and no offset from a file gets as far as to be refused. Though the files
change from one read to the next, a lookup fails only by the bytes of its file; a document without a name
is a fault in strict mode alone, and only where a lookup of it finds nothing. A query is refused if it has
no words, before anything is read, and otherwise fails only in these ways, all of which speak of damage
and none of misuse. -/
theorem open_files_fail_by_damage :
    ((∀ disk source base table, ChainTable.openAt source disk base = .ok table → table.source.Regular) ∧
      ∀ disk settings engine, (Engine.start disk settings).result = .ok engine → engine.Regular) ∧
    (∀ (source : Source) disk offset length,
      (source.Regular → ∀ fault, source.read disk offset length = .error fault →
        fault = .truncated offset length) ∧
      (source.length.toNat < 2 ^ 63 → source.readFile disk offset length =
        source.ensureExtent offset length >>= fun _ => source.seekAndRead disk offset length)) ∧
    (∀ table : ChainTable, table.source.Regular →
      (∀ key, Explains (lookupChain table key) (fun disk => table.lookup disk key)
        fun _ => Fault.FromBytes) ∧
      (∀ id, Explains (lookupDocument ⟨table⟩ id) (fun disk => DocumentTable.lookup ⟨table⟩ disk id)
        fun _ => Fault.FromBytes) ∧
      (∀ word, Explains (lookupWord ⟨table⟩ word) (fun disk => WordTable.lookup ⟨table⟩ disk word)
        fun _ => Fault.FromBytes) ∧
      ∀ id strict, Explains (resolve ⟨table⟩ id strict)
        (fun disk => DocumentTable.resolve ⟨table⟩ disk id strict) fun disks fault =>
          fault.FromBytes ∨
            strict = true ∧ fault = .missingDocument id ∧ Lacks ⟨table⟩ id disks) ∧
    (∀ engine : Engine, engine.Regular → ∀ words,
      (∀ disks, ((query engine words).run .machine disks).outcome.result = .error .emptyQuery ↔
        words = []) ∧
      (∀ disks, words = [] →
        ((query engine words).run .machine disks).outcome = Logged.fail .emptyQuery) ∧
      Explains (query engine words) (fun disk => engine.query disk words) fun disks fault =>
        words = [] ∧ fault = .emptyQuery ∨ Unanswered engine disks fault) ∧
    ∀ fault : Fault, (fault.FromBytes ∨ ∃ id, fault = .missingDocument id) →
      fault.isDamage = true ∧ fault.isMisuse = false := by
  refine ⟨⟨fun disk source base table opened => ?_, fun disk settings engine => Engine.regular_of_start⟩,
    fun source disk offset length => ⟨fun regular fault => Source.read_eq_error regular,
      fun possible => ?_⟩,
    fun table regular => ⟨fun key => ⟨fun disk => ?_, ?_⟩, fun id => ⟨fun disk => ?_, ?_⟩,
      fun word => ⟨fun disk => ?_, ?_⟩, fun id strict => ⟨fun disk => ?_, ?_⟩⟩,
    fun engine regular words => ⟨fun disks => run_query_eq_emptyQuery regular, ?_, fun disk => ?_, ?_⟩,
    fun fault => Fault.isDamage_of_fromBytes⟩
  · rw [ChainTable.eq_of_openAt opened]
    exact ChainTable.regular_of_openAt opened
  · exact Source.readFile_eq_seekAndRead possible offset length
  · exact onDisk_lookupChain disk table key
  · exact failsAs_lookupChain regular key
  · exact onDisk_lookupDocument disk ⟨table⟩ id
  · exact failsAs_lookupDocument regular id
  · exact onDisk_lookupWord disk ⟨table⟩ word
  · exact failsAs_lookupWord regular word
  · exact onDisk_resolve disk ⟨table⟩ id strict
  · exact failsAs_resolve regular id strict
  · rintro disks rfl
    rfl
  · exact onDisk_query disk engine words
  · intro disks fault failed
    by_cases none : words = []
    · subst none
      cases failed
      exact Or.inl ⟨rfl, rfl⟩
    · exact Or.inr (failsAs_query regular none disks fault failed)

theorem open_files_fail_by_damage_sample :
    Source.readFile ⟨"whole", sampleDisk.stamp (.file 0), .seek⟩ sampleDisk (2 ^ 64 - 1) 12 =
      (Source.ensureExtent ⟨"whole", sampleDisk.stamp (.file 0), .seek⟩ (2 ^ 64 - 1) 12 >>= fun _ =>
        Source.seekAndRead ⟨"whole", sampleDisk.stamp (.file 0), .seek⟩ sampleDisk (2 ^ 64 - 1) 12) ∧
    ∃ engine : Engine,
      (engine.query sampleDisk ["b"]).result = .error (.missingDocument 7) ∧
        engine.strict = true ∧
        ∃ index ∈ engine.indexes, Lacks index.documents 7 fun _ => sampleDisk := by
  constructor
  · exact (open_files_fail_by_damage.2.1 _ _ _ _).2 (by decide +kernel)
  · have asked : ((Engine.start sampleDisk (.lenientOver ["whole"])).result >>= fun engine =>
        .ok (Engine.query { engine with strict := true } sampleDisk ["b"]).result) =
          .ok (.error (.missingDocument 7)) := by
      decide +kernel
    obtain ⟨tolerant, started, answer⟩ := Outcome.bind_eq_ok.mp asked
    let engine : Engine := { tolerant with strict := true }
    have failed : (engine.query sampleDisk ["b"]).result = .error (.missingDocument 7) :=
      Except.ok.inj answer
    have regular : engine.Regular := open_files_fail_by_damage.1.2 _ _ tolerant started
    obtain ⟨reader, fails⟩ := (open_files_fail_by_damage.2.2.2.1 engine regular ["b"]).2.2
    have run := congrArg Logged.result (reader sampleDisk)
    rcases fails _ _ (run.trans failed) with ⟨none, -⟩ | bytes | ⟨-, index, mem, id, _, missing, lacks⟩
    · cases none
    · cases bytes
    · cases missing
      exact ⟨engine, failed, rfl, index, mem, lacks⟩

end Procedure

end InvertedIndex
