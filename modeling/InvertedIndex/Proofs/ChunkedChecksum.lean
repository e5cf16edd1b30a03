import InvertedIndex.Checksum
import InvertedIndex.Proofs.Reading

/-!
The checksum as a loop over one buffer, which a short chunk leaves partly as it was. The loop ends,
in one way, and takes in everything behind the header once, whatever the length of a chunk.
-/

set_option autoImplicit false
set_option relaxedAutoImplicit false

namespace InvertedIndex.Source

open Outcome (bind_eq_ok bind_of_ok)

variable {source : Source} {disk : Disk} {chunk : UInt64}

theorem toNat_pos_of_ne_zero {word : UInt64} (h : word ≠ 0) : 0 < word.toNat :=
  UInt64.lt_iff_toNat_lt.mp (UInt64.pos_iff_ne_zero.mpr h)

theorem toNat_chunkLength (source : Source) (chunk : UInt64) {offset : Offset}
    (inside : offset.toNat ≤ source.length.toNat) :
    (source.chunkLength chunk offset).toNat =
      min (source.length.toNat - offset.toNat) chunk.toNat := by
  have left : (source.length - offset).toNat = source.length.toNat - offset.toNat :=
    UInt64.toNat_sub_of_le _ _ (UInt64.le_iff_toNat_le.mpr inside)
  unfold chunkLength
  split
  · next last =>
    rw [UInt64.lt_iff_toNat_lt] at last
    omega
  · next full =>
    rw [UInt64.lt_iff_toNat_lt] at full
    omega

theorem toNat_add_chunkLength (source : Source) (chunk : UInt64) {offset : Offset}
    (inside : offset.toNat ≤ source.length.toNat) :
    (offset + source.chunkLength chunk offset).toNat =
      offset.toNat + min (source.length.toNat - offset.toNat) chunk.toNat := by
  have small := source.length.toNat_lt
  have length := source.toNat_chunkLength chunk inside
  rw [UInt64.toNat_add, length]
  apply Nat.mod_eq_of_lt
  omega

/-- Where the loop is: the offset of the next chunk, the buffer that chunks are read into, and the
remainder of all that was taken in. -/
structure Hashing where
  offset : Offset
  buffer : List UInt8
  remainder : UInt32

structure HashRound where
  offset : Offset
  length : UInt64
  taken : List UInt8

def HashRound.positions (round : HashRound) : List Nat :=
  List.range' round.offset.toNat round.length.toNat

def Hashing.start (buffer : List UInt8) : Hashing :=
  ⟨(Record.size FileHeader).toUInt64, buffer, Crc32.start⟩

def hashRound (source : Source) (disk : Disk) (chunk : UInt64) (now : Hashing) :
    Except Fault (HashRound × Hashing) := do
  let length := source.chunkLength chunk now.offset
  let bytes ← source.read disk now.offset length
  let buffer := bytes.data.toList ++ now.buffer.drop length.toNat
  let taken := buffer.take length.toNat
  pure (⟨now.offset, length, taken⟩,
    ⟨now.offset + length, buffer, Crc32.update now.remainder taken⟩)

/-- The loop ends after some rounds, at the end of the source or with a fault. -/
inductive Hashes (source : Source) (disk : Disk) (chunk : UInt64) :
    Hashing → List HashRound → Except Fault Hashing → Prop
  | done {now : Hashing} (stop : ¬now.offset < source.length) :
      Hashes source disk chunk now [] (.ok now)
  | failed {now : Hashing} {fault : Fault} (more : now.offset < source.length)
      (failed : source.hashRound disk chunk now = .error fault) :
      Hashes source disk chunk now [] (.error fault)
  | again {now next : Hashing} {round : HashRound} {rounds : List HashRound}
      {outcome : Except Fault Hashing} (more : now.offset < source.length)
      (step : source.hashRound disk chunk now = .ok (round, next))
      (rest : Hashes source disk chunk next rounds outcome) :
      Hashes source disk chunk now (round :: rounds) outcome

theorem size_of_read {offset : Offset} {length : UInt64} {bytes : ByteArray}
    (h : source.read disk offset length = .ok bytes) : bytes.size = length.toNat := by
  unfold read at h
  cases ha : source.access with
  | seek =>
    rw [ha] at h
    obtain ⟨_, -, h⟩ := bind_eq_ok.mp h
    dsimp only at h
    split at h
    · next inside =>
      cases h
      rw [ByteArray.size_extract]
      rcases inside with rfl | inside
      · simp
      · omega
    · split at h <;> cases h
  | mapped =>
    simp only [ha, readMemory] at h
    split at h
    · cases h
      rw [ByteArray.size_extract]
      omega
    · cases h

theorem hashRound_eq_ok {now next : Hashing} {round : HashRound} :
    source.hashRound disk chunk now = .ok (round, next) ↔
      ∃ bytes, source.read disk now.offset (source.chunkLength chunk now.offset) = .ok bytes ∧
        round = ⟨now.offset, source.chunkLength chunk now.offset, bytes.data.toList⟩ ∧
        next = ⟨now.offset + source.chunkLength chunk now.offset,
          bytes.data.toList ++ now.buffer.drop (source.chunkLength chunk now.offset).toNat,
          Crc32.update now.remainder bytes.data.toList⟩ := by
  rw [hashRound, bind_eq_ok]
  refine exists_congr fun bytes => and_congr_right fun hread => ?_
  have front : bytes.data.toList.length = (source.chunkLength chunk now.offset).toNat := by
    rw [← size_of_read hread]
    simp
  simp only [← front, List.take_left]
  simp [pure, Except.pure, eq_comm]

theorem hashRound_eq_error {now : Hashing} {fault : Fault} :
    source.hashRound disk chunk now = .error fault ↔
      source.read disk now.offset (source.chunkLength chunk now.offset) = .error fault := by
  rw [hashRound, Outcome.bind_eq_error]
  simp [pure, Except.pure]

theorem chunkLength_pos (positive : chunk ≠ 0) {offset : Offset} (more : offset < source.length) :
    0 < (source.chunkLength chunk offset).toNat ∧
      (offset + source.chunkLength chunk offset).toNat =
        offset.toNat + (source.chunkLength chunk offset).toNat ∧
      offset.toNat + (source.chunkLength chunk offset).toNat ≤ source.length.toNat := by
  rw [UInt64.lt_iff_toNat_lt] at more
  have some := toNat_pos_of_ne_zero positive
  have length := source.toNat_chunkLength chunk more.le
  have next := source.toNat_add_chunkLength chunk more.le
  omega

namespace Hashes

theorem unique {now : Hashing} {rounds rounds' : List HashRound} {outcome outcome' : Except Fault Hashing}
    (h : Hashes source disk chunk now rounds outcome)
    (h' : Hashes source disk chunk now rounds' outcome') : rounds' = rounds ∧ outcome' = outcome := by
  induction h generalizing rounds' outcome' with
  | done stop =>
    cases h' with
    | done => exact ⟨rfl, rfl⟩
    | failed more => exact absurd more stop
    | again more => exact absurd more stop
  | failed more failed =>
    cases h' with
    | done stop => exact absurd more stop
    | failed _ failed' =>
      cases failed.symm.trans failed'
      exact ⟨rfl, rfl⟩
    | again _ step => cases failed.symm.trans step
  | again more step _ ih =>
    cases h' with
    | done stop => exact absurd more stop
    | failed _ failed => cases step.symm.trans failed
    | again _ step' rest' =>
      cases step.symm.trans step'
      obtain ⟨rfl, rfl⟩ := ih rest'
      exact ⟨rfl, rfl⟩

end Hashes

theorem exists_hashes (source : Source) (disk : Disk) (positive : chunk ≠ 0) (now : Hashing) :
    ∃ rounds outcome, Hashes source disk chunk now rounds outcome := by
  -- Every round that does not fail moves the offset towards the end.
  induction left : source.length.toNat - now.offset.toNat using Nat.strong_induction_on
    generalizing now with
  | _ left ih =>
    subst left
    by_cases more : now.offset < source.length
    · cases step : source.hashRound disk chunk now with
      | error fault => exact ⟨[], .error fault, .failed more step⟩
      | ok taken =>
        obtain ⟨round, next⟩ := taken
        obtain ⟨some, moved, inside⟩ := chunkLength_pos positive more
        have ahead : next.offset = now.offset + source.chunkLength chunk now.offset := by
          obtain ⟨bytes, -, -, rfl⟩ := hashRound_eq_ok.mp step
          rfl
        rw [← ahead] at moved
        obtain ⟨rounds, outcome, rest⟩ := ih _ (by omega) next rfl
        exact ⟨round :: rounds, outcome, .again more step rest⟩
    · exact ⟨[], .ok now, .done more⟩

theorem chunkCount_of_lt (positive : chunk ≠ 0) {offset : Offset} (more : offset < source.length) :
    source.chunkCount chunk offset =
      source.chunkCount chunk (offset + source.chunkLength chunk offset) + 1 := by
  obtain ⟨-, moved, -⟩ := chunkLength_pos positive more
  rw [UInt64.lt_iff_toNat_lt] at more
  have length := source.toNat_chunkLength chunk more.le
  have some := toNat_pos_of_ne_zero positive
  rw [chunkCount, chunkCount, moved, length, ← Nat.add_div_right _ some]
  by_cases last : source.length.toNat - offset.toNat < chunk.toNat
  · -- The last chunk may be short, and counts as one nevertheless.
    have one (n : Nat) (low : chunk.toNat ≤ n) (high : n < 2 * chunk.toNat) : n / chunk.toNat = 1 :=
      Nat.div_eq_of_lt_le (by omega) (by omega)
    rw [one _ (by omega) (by omega), one _ (by omega) (by omega)]
  · congr 1
    omega

theorem chunkCount_of_not_lt (positive : chunk ≠ 0) {offset : Offset} (stop : ¬offset < source.length) :
    source.chunkCount chunk offset = 0 := by
  have some := toNat_pos_of_ne_zero positive
  rw [UInt64.lt_iff_toNat_lt] at stop
  rw [chunkCount]
  apply Nat.div_eq_of_lt
  omega

theorem Hashes.foldChunks {now : Hashing} {rounds : List HashRound} {outcome : Except Fault Hashing}
    (h : Hashes source disk chunk now rounds outcome) (positive : chunk ≠ 0) :
    source.foldChunks disk chunk (source.chunkCount chunk now.offset) now.offset now.remainder =
      outcome.map Hashing.remainder := by
  induction h with
  | done stop =>
    rw [chunkCount_of_not_lt positive stop]
    rfl
  | failed more failed =>
    rw [chunkCount_of_lt positive more, Source.foldChunks, hashRound_eq_error.mp failed]
    rfl
  | again more step _ ih =>
    obtain ⟨bytes, hread, -, rfl⟩ := hashRound_eq_ok.mp step
    rw [chunkCount_of_lt positive more, Source.foldChunks]
    exact (bind_of_ok hread _).trans ih

theorem Hashes.checksumBy {buffer : List UInt8} {rounds : List HashRound} {outcome : Except Fault Hashing}
    (h : Hashes source disk chunk (.start buffer) rounds outcome) (positive : chunk ≠ 0) :
    source.checksumBy disk chunk = outcome.map fun last => Crc32.finish last.remainder := by
  have folded := h.foldChunks positive
  rw [Source.checksumBy]
  simp only [Hashing.start] at folded
  rw [folded]
  cases outcome <;> rfl

theorem Hashes.length_eq {now last : Hashing} {rounds : List HashRound}
    (h : Hashes source disk chunk now rounds (.ok last)) (positive : chunk ≠ 0) :
    rounds.length = source.chunkCount chunk now.offset := by
  generalize ended : (Except.ok last : Except Fault Hashing) = outcome at h
  induction h with
  | done stop => exact (chunkCount_of_not_lt positive stop).symm
  | failed => cases ended
  | again more step _ ih =>
    obtain ⟨bytes, -, -, rfl⟩ := hashRound_eq_ok.mp step
    rw [chunkCount_of_lt positive more, List.length_cons, ih ended]

/-- What some rounds do with a file: they read every position from an offset on once and in order, and
take in what stands there, so they end with the remainder of all of it. -/
structure TakesIn (file : List UInt8) (chunk : UInt64) (now : Hashing) (rounds : List HashRound)
    (last : Hashing) : Prop where
  positions : rounds.flatMap HashRound.positions =
    List.range' now.offset.toNat (file.length - now.offset.toNat)
  each : ∀ round ∈ rounds, 0 < round.length.toNat ∧ round.length.toNat ≤ chunk.toNat ∧
    round.offset.toNat + round.length.toNat ≤ file.length ∧
    round.taken = (file.drop round.offset.toNat).take round.length.toNat
  buffer : now.buffer.length = chunk.toNat → last.buffer.length = chunk.toNat
  remainder : last.remainder = Crc32.update now.remainder (file.drop now.offset.toNat)

namespace TakesIn

variable {file : List UInt8} {now : Hashing}

theorem nil (stop : file.length ≤ now.offset.toNat) : TakesIn file chunk now [] now := by
  refine ⟨?_, by simp, id, ?_⟩
  · rw [Nat.sub_eq_zero_of_le stop]
    rfl
  · rw [List.drop_eq_nil_of_le stop]
    rfl

theorem cons {bytes : List UInt8} {length : UInt64} {rounds : List HashRound} {last : Hashing}
    (some : 0 < length.toNat) (short : length.toNat ≤ chunk.toNat)
    (moved : (now.offset + length).toNat = now.offset.toNat + length.toNat)
    (inside : now.offset.toNat + length.toNat ≤ file.length)
    (stands : bytes = (file.drop now.offset.toNat).take length.toNat)
    (rest : TakesIn file chunk ⟨now.offset + length, bytes ++ now.buffer.drop length.toNat,
      Crc32.update now.remainder bytes⟩ rounds last) :
    TakesIn file chunk now (⟨now.offset, length, bytes⟩ :: rounds) last := by
  obtain ⟨positions, each, buffer, remainder⟩ := rest
  rw [moved] at positions remainder
  refine ⟨?_, List.forall_mem_cons.mpr ⟨⟨some, short, inside, stands⟩, each⟩,
    fun room => buffer ?_, ?_⟩
  · have split : file.length - now.offset.toNat =
        length.toNat + (file.length - (now.offset.toNat + length.toNat)) := by omega
    rw [List.flatMap_cons, positions, HashRound.positions, split, ← List.range'_append_1]
  · have taken : bytes.length = length.toNat := by
      rw [stands, List.length_take, List.length_drop]
      omega
    rw [List.length_append, List.length_drop, taken, room]
    omega
  · rw [remainder, ← Crc32.update_append, stands, ← List.drop_drop, List.take_append_drop]

end TakesIn

theorem Hashes.takesIn {file : List UInt8} (whole : source.Covers disk file) (positive : chunk ≠ 0)
    {now : Hashing} {rounds : List HashRound} {outcome : Except Fault Hashing}
    (h : Hashes source disk chunk now rounds outcome) :
    ∃ last, outcome = .ok last ∧ TakesIn file chunk now rounds last := by
  induction h with
  | @done now stop =>
    rw [UInt64.lt_iff_toNat_lt, whole.length] at stop
    exact ⟨now, rfl, .nil (not_lt.mp stop)⟩
  | failed more failed =>
    obtain ⟨-, -, inside⟩ := chunkLength_pos positive more
    obtain ⟨bytes, hread, -⟩ := read_eq_contents whole.intact inside
    cases hread.symm.trans (hashRound_eq_error.mp failed)
  | again more step _ ih =>
    obtain ⟨last, ended, rest⟩ := ih
    obtain ⟨some, moved, inside⟩ := chunkLength_pos positive more
    obtain ⟨bytes, hread, rfl, rfl⟩ := hashRound_eq_ok.mp step
    obtain ⟨bytes', hread', stands⟩ := read_eq_contents whole.intact inside
    cases hread.symm.trans hread'
    rw [whole.contents] at stands
    rw [whole.length] at inside
    have short := source.toNat_chunkLength chunk (UInt64.lt_iff_toNat_lt.mp more).le
    exact ⟨last, ended, .cons some (by omega) moved inside stands rest⟩

namespace Covers

variable {file : List UInt8}

theorem checksumBy (whole : source.Covers disk file) (positive : chunk ≠ 0) :
    source.checksumBy disk chunk = .ok (Crc32.digest (file.drop (Record.size FileHeader))) := by
  obtain ⟨rounds, outcome, h⟩ := source.exists_hashes disk positive (.start [])
  obtain ⟨last, rfl, all⟩ := h.takesIn whole positive
  rw [h.checksumBy positive]
  exact congrArg (fun remainder => Except.ok (Crc32.finish remainder)) all.remainder

theorem checksum (whole : source.Covers disk file) :
    source.checksum disk = .ok (Crc32.digest (file.drop (Record.size FileHeader))) :=
  whole.checksumBy (by decide)

end Covers

/-- The checksum of a file that does not change, taken in chunks of any length through a buffer that holds
anything at first. The loop ends, in one way and without a fault; it reads every position behind the header
once, in order, and none behind the end. Each round takes in what stands at its positions and nothing that
the buffer held before. So the checksum is the digest of everything behind the header at once. -/
theorem chunked_checksum_is_whole_digest {file : List UInt8} (whole : source.Covers disk file)
    (positive : chunk ≠ 0) {buffer : List UInt8} (room : buffer.length = chunk.toNat) :
    (∃ rounds last,
      (∀ rounds' outcome, Hashes source disk chunk (.start buffer) rounds' outcome ↔
        rounds' = rounds ∧ outcome = .ok last) ∧
      rounds.length = (file.length - 24 + (chunk.toNat - 1)) / chunk.toNat ∧
      rounds.flatMap HashRound.positions = List.range' 24 (file.length - 24) ∧
      (∀ round ∈ rounds, 0 < round.length.toNat ∧ round.length.toNat ≤ chunk.toNat ∧
        round.offset.toNat + round.length.toNat ≤ file.length ∧
        round.taken = (file.drop round.offset.toNat).take round.length.toNat) ∧
      last.buffer.length = chunk.toNat ∧
      Crc32.finish last.remainder = Crc32.digest (file.drop 24)) ∧
    source.checksumBy disk chunk = .ok (Crc32.digest (file.drop 24)) ∧
    source.checksumBy disk chunk = source.checksum disk := by
  obtain ⟨rounds, outcome, h⟩ := source.exists_hashes disk positive (.start buffer)
  obtain ⟨last, rfl, all⟩ := h.takesIn whole positive
  refine ⟨⟨rounds, last, fun rounds' outcome => ⟨h.unique, ?_⟩, ?_, all.positions, all.each,
    all.buffer room, congrArg Crc32.finish all.remainder⟩, whole.checksumBy positive, ?_⟩
  · rintro ⟨rfl, rfl⟩
    exact h
  · rw [h.length_eq positive, chunkCount, whole.length]
    rfl
  · exact (whole.checksumBy positive).trans whole.checksum.symm

/-- A disk with one file: a header of zeros and five bytes behind it. -/
def tailedDisk : Disk :=
  { objects := #[⟨(List.replicate 24 (0 : UInt8) ++ [1, 2, 3, 4, 5]).toByteArray, 0⟩]
    folders := []
    names := [(["tailed"], 0)] }

/-- Chunks of two bytes: the last one is short, and the buffer keeps a byte of the chunk before. -/
theorem chunked_checksum_is_whole_digest_tailed :
    let source : Source := ⟨"tailed", tailedDisk.stamp (.file 0), .seek⟩
    source.Covers tailedDisk (tailedDisk.bytes (.file 0)).data.toList ∧
      (∃ rounds last, Hashes source tailedDisk 2 (.start [8, 9]) rounds (.ok last) ∧
        rounds.length = 3 ∧ rounds.flatMap HashRound.positions = [24, 25, 26, 27, 28] ∧
        last.buffer.length = 2 ∧ Crc32.finish last.remainder = 0x470B99F4) ∧
      source.checksumBy tailedDisk 2 = .ok 0x470B99F4 := by
  intro source
  have whole : source.Covers tailedDisk (tailedDisk.bytes (.file 0)).data.toList :=
    Source.covers_stamp "tailed" .seek rfl (by decide +kernel)
  have length : (tailedDisk.bytes (.file 0)).data.toList.length = 29 := by decide +kernel
  have digest : Crc32.digest ((tailedDisk.bytes (.file 0)).data.toList.drop 24) = 0x470B99F4 := by
    decide +kernel
  obtain ⟨⟨rounds, last, only, count, positions, -, buffer, ended⟩, checksum, -⟩ :=
    chunked_checksum_is_whole_digest whole (by decide : (2 : UInt64) ≠ 0)
      (rfl : ([8, 9] : List UInt8).length = _)
  rw [length] at count positions
  rw [digest] at ended checksum
  exact ⟨whole, ⟨rounds, last, (only _ _).mpr ⟨rfl, rfl⟩, count, positions, buffer, ended⟩, checksum⟩

end InvertedIndex.Source
