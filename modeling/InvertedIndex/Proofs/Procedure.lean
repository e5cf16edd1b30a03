import InvertedIndex.Proofs.Reading

/-!
Reading procedures, taken apart into sums, products, allocations and reads. One can be run with
machine words or with numbers that have no bound, and on a disk that is another one at every read;
if what it `Ensures` is enough, both ways are the same.
-/

set_option autoImplicit false
set_option relaxedAutoImplicit false

namespace InvertedIndex

variable {α β : Type}

inductive Arithmetic
  | machine
  | unbounded

def Arithmetic.hold : Arithmetic → Nat → Nat
  | machine, number => number % 2 ^ 64
  | unbounded, number => number

namespace Source

/-- `ensureExtent` for plain numbers. What does not fit into machine words is inside no source. -/
def ensureExtentAt (source : Source) (offset length : Nat) : Except Fault Unit :=
  if offset < 2 ^ 64 ∧ length < 2 ^ 64 then source.ensureExtent offset.toUInt64 length.toUInt64
  else .error (.truncated offset.toUInt64 length.toUInt64)

def readAt (source : Source) (disk : Disk) (offset length : Nat) : Except Fault ByteArray :=
  if offset < 2 ^ 64 ∧ length < 2 ^ 64 then source.read disk offset.toUInt64 length.toUInt64
  else .error (.truncated offset.toUInt64 length.toUInt64)

theorem ensureExtentAt_toNat (source : Source) (offset : Offset) (length : UInt64) :
    source.ensureExtentAt offset.toNat length.toNat = source.ensureExtent offset length := by
  rw [ensureExtentAt, if_pos ⟨offset.toNat_lt, length.toNat_lt⟩]
  simp

theorem readAt_toNat (source : Source) (disk : Disk) (offset : Offset) (length : UInt64) :
    source.readAt disk offset.toNat length.toNat = source.read disk offset length := by
  rw [readAt, if_pos ⟨offset.toNat_lt, length.toNat_lt⟩]
  simp

theorem inside_of_ensureExtentAt {source : Source} {offset length : Nat}
    (h : source.ensureExtentAt offset length = .ok ()) :
    offset + length ≤ source.length.toNat := by
  unfold ensureExtentAt at h
  split at h
  · next fit =>
    have inside := ensureExtent_eq_ok.mp h
    rwa [Nat.toUInt64_eq, Nat.toUInt64_eq, UInt64.toNat_ofNat_of_lt' fit.1,
      UInt64.toNat_ofNat_of_lt' fit.2] at inside
  · cases h

theorem inside_of_read {source : Source} {disk : Disk} {offset : Offset} {length : UInt64}
    {bytes : ByteArray} (h : source.read disk offset length = .ok bytes) :
    offset.toNat + length.toNat ≤ source.length.toNat := by
  unfold read at h
  cases ha : source.access with
  | seek =>
    rw [ha] at h
    obtain ⟨_, inside, -⟩ := Outcome.bind_eq_ok.mp h
    exact ensureExtent_eq_ok.mp inside
  | mapped =>
    simp only [ha, readMemory] at h
    split at h
    · omega
    · cases h

theorem inside_of_readAt {source : Source} {disk : Disk} {offset length : Nat} {bytes : ByteArray}
    (h : source.readAt disk offset length = .ok bytes) : offset + length ≤ source.length.toNat := by
  unfold readAt at h
  split at h
  · next fit =>
    have inside := inside_of_read h
    rwa [Nat.toUInt64_eq, Nat.toUInt64_eq, UInt64.toNat_ofNat_of_lt' fit.1,
      UInt64.toNat_ofNat_of_lt' fit.2] at inside
  · cases h

end Source

/-- The steps of a procedure. Those that give something are followed by what is done with it. -/
inductive Procedure (α : Type) : Type
  | done (a : α)
  | stop (fault : Fault)
  | report (event : Event) (next : Procedure α)
  /-- Opens the file that a path leads to. -/
  | find (path : String) (access : Access) (next : Source → Procedure α)
  /-- Works out a sum or a product. -/
  | compute (number : Nat) (next : Nat → Procedure α)
  /-- Makes room for some elements of a source. -/
  | reserve (count : Nat) (source : Source) (next : Procedure α)
  | read (source : Source) (offset length : Nat) (next : ByteArray → Procedure α)

/-- What a run does: the sums and products before anything is cut off, the elements that room is
made for, the extents that bytes come from, and how it ends. -/
structure Run (α : Type) where
  numbers : List Nat
  rooms : List (Nat × Source)
  reads : List (Source × Nat × Nat)
  outcome : Logged α

namespace Procedure

def andThen : Procedure α → (α → Procedure β) → Procedure β
  | done a, f => f a
  | stop fault, _ => stop fault
  | report event next, f => report event (next.andThen f)
  | find path access next, f => find path access fun source => (next source).andThen f
  | compute number next, f => compute number fun held => (next held).andThen f
  | reserve count source next, f => reserve count source (next.andThen f)
  | read source offset length next, f => read source offset length fun bytes => (next bytes).andThen f

instance : Monad Procedure where
  pure := done
  bind := andThen

private theorem andThen_done (p : Procedure α) : p.andThen done = p := by
  induction p with
  | done a => rfl
  | stop fault => rfl
  | report event next ih => rw [andThen, ih]
  | find path access next ih => exact congrArg (find path access) (funext ih)
  | compute number next ih => exact congrArg (compute number) (funext ih)
  | reserve count source next ih => rw [andThen, ih]
  | read source offset length next ih => exact congrArg (read source offset length) (funext ih)

private theorem andThen_assoc {γ : Type} (p : Procedure α) (f : α → Procedure β)
    (g : β → Procedure γ) : (p.andThen f).andThen g = p.andThen fun a => (f a).andThen g := by
  induction p with
  | done a => rfl
  | stop fault => rfl
  | report event next ih => simp only [andThen, ih]
  | find path access next ih => simp only [andThen, ih]
  | compute number next ih => simp only [andThen, ih]
  | reserve count source next ih => simp only [andThen, ih]
  | read source offset length next ih => simp only [andThen, ih]

instance : LawfulMonad Procedure := LawfulMonad.mk' Procedure andThen_done (fun _ _ => rfl)
  andThen_assoc

def ofResult : Except Fault α → Procedure α
  | .ok a => done a
  | .error fault => stop fault

def ofLogged (x : Logged α) : Procedure α :=
  x.events.foldr report (ofResult x.result)

def number (n : Nat) : Procedure Nat :=
  compute n done

def room (count : Nat) (source : Source) : Procedure Unit :=
  reserve count source (done ())

def bytes (source : Source) (offset length : Nat) : Procedure ByteArray :=
  read source offset length done

/-- Runs a procedure; each read and each opening sees the next one of some disks. -/
def run (arithmetic : Arithmetic) : Procedure α → (Nat → Disk) → Run α
  | done a, _ => ⟨[], [], [], pure a⟩
  | stop fault, _ => ⟨[], [], [], Logged.fail fault⟩
  | report event next, disks =>
    let rest := next.run arithmetic disks
    { rest with outcome := ⟨event :: rest.outcome.events, rest.outcome.result⟩ }
  | find path access next, disks =>
    match Source.openPath (disks 0) path access with
    | .ok source => (next source).run arithmetic fun n => disks (n + 1)
    | .error fault => ⟨[], [], [], Logged.fail fault⟩
  | compute number next, disks =>
    let rest := (next (arithmetic.hold number)).run arithmetic disks
    { rest with numbers := number :: rest.numbers }
  | reserve count source next, disks =>
    let rest := next.run arithmetic disks
    { rest with rooms := (count, source) :: rest.rooms }
  | read source offset length next, disks =>
    match source.readAt (disks 0) offset length with
    | .ok bytes =>
      let rest := (next bytes).run arithmetic fun n => disks (n + 1)
      { rest with reads := (source, offset, length) :: rest.reads }
    | .error fault => ⟨[], [], [], Logged.fail fault⟩

def onDisk (p : Procedure α) (disk : Disk) : Logged α :=
  (p.run .machine fun _ => disk).outcome

section OnDisk

variable (disk : Disk)

@[simp]
theorem onDisk_pure (a : α) : (pure a : Procedure α).onDisk disk = pure a := rfl

@[simp]
theorem onDisk_stop (fault : Fault) :
    (stop fault : Procedure α).onDisk disk = liftM (Except.error fault : Except Fault α) := rfl

@[simp]
theorem onDisk_bind (p : Procedure α) (f : α → Procedure β) :
    (p >>= f).onDisk disk = p.onDisk disk >>= fun a => (f a).onDisk disk := by
  show (p.andThen f).onDisk disk = _
  induction p with
  | done a => exact (pure_bind a fun a => (f a).onDisk disk).symm
  | stop fault => rfl
  | report event next ih =>
    have logged : ∀ {γ : Type} (q : Procedure γ),
        (report event q).onDisk disk = Logged.report event >>= fun _ => q.onDisk disk := fun _ => rfl
    rw [andThen, logged, logged, ih, bind_assoc]
  | find path access next ih =>
    simp only [onDisk, andThen, run] at ih ⊢
    cases Source.openPath disk path access with
    | error fault => rfl
    | ok source => exact ih source
  | compute number next ih => exact ih (number % 2 ^ 64)
  | reserve count source next ih => exact ih
  | read source offset length next ih =>
    simp only [onDisk, andThen, run] at ih ⊢
    cases source.readAt disk offset length with
    | error fault => rfl
    | ok bytes => exact ih bytes

@[simp]
theorem onDisk_ofResult (x : Except Fault α) : (ofResult x).onDisk disk = liftM x := by
  cases x <;> rfl

@[simp]
theorem onDisk_report (event : Event) (next : Procedure α) :
    (report event next).onDisk disk = Logged.report event >>= fun _ => next.onDisk disk := rfl

@[simp]
theorem onDisk_ofLogged (x : Logged α) : (ofLogged x).onDisk disk = x := by
  obtain ⟨events, result⟩ := x
  induction events with
  | nil => exact onDisk_ofResult disk result
  | cons event events ih =>
    show Logged.report event >>= (fun _ => (ofLogged ⟨events, result⟩).onDisk disk) = _
    rw [ih]
    cases result <;> rfl

@[simp]
theorem onDisk_mapM (f : α → Procedure β) (as : List α) :
    (as.mapM f).onDisk disk = as.mapM fun a => (f a).onDisk disk := by
  induction as with
  | nil => rfl
  | cons a as ih => simp only [List.mapM_cons, onDisk_bind, onDisk_pure, ih]

@[simp]
theorem onDisk_room (count : Nat) (source : Source) : (room count source).onDisk disk = pure () := rfl

theorem onDisk_find (path : String) (access : Access) (next : Source → Procedure α) :
    (find path access next).onDisk disk =
      (liftM (Source.openPath disk path access) : Logged Source) >>= fun source =>
        (next source).onDisk disk := by
  simp only [onDisk, run]
  cases Source.openPath disk path access with
  | error fault => rfl
  | ok source => rfl

@[simp]
theorem onDisk_number_add (a b : UInt64) :
    (number (a.toNat + b.toNat)).onDisk disk = pure (a + b).toNat :=
  congrArg pure (UInt64.toNat_add a b).symm

@[simp]
theorem onDisk_number_mul (a b : UInt64) :
    (number (a.toNat * b.toNat)).onDisk disk = pure (a * b).toNat :=
  congrArg pure (UInt64.toNat_mul a b).symm

@[simp]
theorem onDisk_bytes (source : Source) (offset : Offset) (length : UInt64) :
    (bytes source offset.toNat length.toNat).onDisk disk = liftM (source.read disk offset length) := by
  rw [← Source.readAt_toNat]
  simp only [onDisk, bytes, run]
  cases source.readAt disk offset.toNat length.toNat <;> rfl

end OnDisk

/-- Whatever the reads give, all sums and products are machine words, room is made for no more
elements than the source has bytes, and a value that comes out is as it should be. -/
def Ensures (post : α → Prop) : Procedure α → Prop
  | done a => post a
  | stop _ => True
  | report _ next => next.Ensures post
  | find path access next => ∀ source, source.path = path → source.access = access →
      (next source).Ensures post
  | compute number next => number < 2 ^ 64 ∧ (next number).Ensures post
  | reserve count source next => count ≤ source.length.toNat ∧ next.Ensures post
  | read source offset length next => offset + length ≤ source.length.toNat →
      ∀ bytes, (next bytes).Ensures post

namespace Ensures

variable {P : α → Prop} {Q : β → Prop}

theorem bind {p : Procedure α} {f : α → Procedure β} (h : p.Ensures P)
    (rest : ∀ a, P a → (f a).Ensures Q) : (p >>= f).Ensures Q := by
  show (p.andThen f).Ensures Q
  induction p with
  | done a => exact rest a h
  | stop fault => trivial
  | report event next ih => exact ih h
  | find path access next ih => exact fun source hpath haccess => ih source (h source hpath haccess)
  | compute number next ih => exact ⟨h.1, ih number h.2⟩
  | reserve count source next ih => exact ⟨h.1, ih h.2⟩
  | read source offset length next ih => exact fun inside bytes => ih bytes (h inside bytes)

theorem imp {P' : α → Prop} {p : Procedure α} (h : p.Ensures P) (weaken : ∀ a, P a → P' a) :
    p.Ensures P' := by
  have more := h.bind (f := pure) (Q := P') weaken
  rwa [bind_pure] at more

theorem ofResult {x : Except Fault α} (h : ∀ a, x = .ok a → P a) : (ofResult x).Ensures P := by
  cases x with
  | error fault => trivial
  | ok a => exact h a rfl

theorem ofLogged {x : Logged α} (h : ∀ a, x.result = .ok a → P a) : (ofLogged x).Ensures P := by
  obtain ⟨events, result⟩ := x
  induction events with
  | nil => exact ofResult h
  | cons event events ih => exact ih h

theorem number {n : Nat} {f : Nat → Procedure β} (small : n < 2 ^ 64) (rest : (f n).Ensures Q) :
    (Procedure.number n >>= f).Ensures Q :=
  ⟨small, rest⟩

theorem room {count : Nat} {source : Source} {f : Unit → Procedure β}
    (fits : count ≤ source.length.toNat) (rest : (f ()).Ensures Q) :
    (Procedure.room count source >>= f).Ensures Q :=
  ⟨fits, rest⟩

theorem mapM {f : α → Procedure β} {as : List α} (each : ∀ a ∈ as, (f a).Ensures Q) :
    (as.mapM f).Ensures fun bs => ∀ b ∈ bs, Q b := by
  induction as with
  | nil => exact fun b mem => by cases mem
  | cons a as ih =>
    rw [List.mapM_cons]
    refine (each a (List.mem_cons_self ..)).bind fun b hb => ?_
    refine (ih fun a' mem => each a' (List.mem_cons_of_mem _ mem)).bind fun bs hbs => ?_
    exact List.forall_mem_cons.mpr ⟨hb, hbs⟩

end Ensures

/-- A run keeps inside machine words and inside its sources, and so is the same without a bound on
numbers. -/
structure Run.Exact (machine unbounded : Run α) : Prop where
  same : machine = unbounded
  numbers : ∀ number ∈ unbounded.numbers, number < 2 ^ 64
  rooms : ∀ room ∈ unbounded.rooms, room.1 ≤ room.2.length.toNat
  reads : ∀ extent ∈ unbounded.reads, extent.2.1 + extent.2.2 ≤ extent.1.length.toNat

theorem Run.Exact.of_ended (outcome : Logged α) :
    Run.Exact (⟨[], [], [], outcome⟩ : Run α) ⟨[], [], [], outcome⟩ :=
  ⟨rfl, by simp, by simp, by simp⟩

/-- What a procedure ensures holds of each of its runs, whatever becomes of the disk meanwhile. -/
theorem Ensures.run {P : α → Prop} {p : Procedure α} (h : p.Ensures P) (disks : Nat → Disk) :
    Run.Exact (p.run .machine disks) (p.run .unbounded disks) ∧
      ∀ a, (p.run .machine disks).outcome.result = .ok a → P a := by
  induction p generalizing disks with
  | done a =>
    refine ⟨Run.Exact.of_ended (pure a), ?_⟩
    intro b hb
    cases hb
    exact h
  | stop fault =>
    refine ⟨Run.Exact.of_ended (Logged.fail fault), ?_⟩
    intro b hb
    cases hb
  | report event next ih =>
    obtain ⟨⟨same, numbers, rooms, reads⟩, result⟩ := ih h disks
    refine ⟨⟨?_, numbers, rooms, reads⟩, result⟩
    simp only [Procedure.run, same]
  | find path access next ih =>
    simp only [Procedure.run]
    cases hopen : Source.openPath (disks 0) path access with
    | error fault => exact ⟨Run.Exact.of_ended (Logged.fail fault), fun _ hb => by cases hb⟩
    | ok source =>
      obtain ⟨id, -, rfl⟩ := Source.eq_of_openPath hopen
      exact ih _ (h _ rfl rfl) _
  | compute number next ih =>
    obtain ⟨small, hnext⟩ := h
    have held : Arithmetic.machine.hold number = Arithmetic.unbounded.hold number :=
      Nat.mod_eq_of_lt small
    obtain ⟨⟨same, numbers, rooms, reads⟩, result⟩ := ih number hnext disks
    simp only [Procedure.run, held]
    refine ⟨⟨?_, List.forall_mem_cons.mpr ⟨small, numbers⟩, rooms, reads⟩, result⟩
    simp only [Arithmetic.hold, same]
  | reserve count source next ih =>
    obtain ⟨fits, hnext⟩ := h
    obtain ⟨⟨same, numbers, rooms, reads⟩, result⟩ := ih hnext disks
    refine ⟨⟨?_, numbers, List.forall_mem_cons.mpr ⟨fits, rooms⟩, reads⟩, result⟩
    simp only [Procedure.run, same]
  | read source offset length next ih =>
    simp only [Procedure.run]
    cases hread : source.readAt (disks 0) offset length with
    | error fault => exact ⟨Run.Exact.of_ended (Logged.fail fault), fun _ hb => by cases hb⟩
    | ok bytes =>
      have inside := Source.inside_of_readAt hread
      obtain ⟨⟨same, numbers, rooms, reads⟩, result⟩ :=
        ih bytes (h inside bytes) fun n => disks (n + 1)
      refine ⟨⟨?_, numbers, rooms, List.forall_mem_cons.mpr ⟨inside, reads⟩⟩, result⟩
      simp only [same]

end Procedure

end InvertedIndex
