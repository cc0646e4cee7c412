import ProtonDrive.Upload.Chunking

/-!
# The chunk reader of the reference client

`ChunkStreamReader` of the TypeScript client fills one buffer of the size of a chunk over and over, and hands
the buffer itself out.

* `pull`                 what `iterateChunks` does until it yields the buffer or has to read the stream again;
* `pull_some`, `pull_none`
                         it takes a full chunk off the bytes it holds, or holds them all on;
* `iterateChunks`        the generator over the values that a stream delivers;
* `chunks_agree`         however a stream is delivered, to either client: the blocks that `run_upload` makes
                         of it are the chunks that `iterateChunks` yields.
-/

set_option linter.unusedVariables false

namespace ProtonDrive.Reference
open Encoding Effects Paths Chunking

/-- `Uint8Array.set` -/
def setAt (buffer src : Bytes) (offset : Nat) : Bytes :=
  buffer.take offset ++ src ++ buffer.drop (offset + src.length)

section
variable {buffer src : Bytes} {offset : Nat}

theorem setAt_length (h : offset + src.length ≤ buffer.length) :
    (setAt buffer src offset).length = buffer.length := by
  simp only [setAt, List.length_append, List.length_take, List.length_drop]
  omega

/-- the bytes up to the end of what was set -/
theorem setAt_take (h : offset ≤ buffer.length) :
    (setAt buffer src offset).take (offset + src.length) = buffer.take offset ++ src := by
  have hlength : (buffer.take offset ++ src).length = offset + src.length := by
    rw [List.length_append, List.length_take, Nat.min_eq_left h]
  unfold setAt
  rw [← hlength, List.take_left]

end

/-- `iterateChunks` where it is suspended: the buffer keeps what it held before, and only its first
`position` bytes count -/
structure ChunkStreamReader (chunkSize : Nat) where
  buffer : Bytes
  position : Nat
  remainingValue : Bytes
  size : buffer.length = chunkSize
  room : position < chunkSize

namespace ChunkStreamReader
variable {n : Nat}

def ofSize (hn : 0 < n) : ChunkStreamReader n where
  buffer := List.replicate n 0
  position := 0
  remainingValue := []
  size := List.length_replicate
  room := hn

/-- `reader.read()` delivered a value -/
def receive (r : ChunkStreamReader n) (value : Bytes) : ChunkStreamReader n :=
  { r with remainingValue := value }

/-- the loop over `remainingValue`, until the buffer is yielded or the value is used up -/
def pull (r : ChunkStreamReader n) : Option Bytes × ChunkStreamReader n :=
  if r.remainingValue = [] then (none, r)
  else if h : r.position + r.remainingValue.length < n then
    (none,
      { buffer := setAt r.buffer r.remainingValue r.position
        position := r.position + r.remainingValue.length
        remainingValue := []
        size := (setAt_length (by rw [r.size]; exact Nat.le_of_lt h)).trans r.size
        room := h })
  else
    let remainingToFillBuffer := n - r.position
    let buffer := setAt r.buffer (r.remainingValue.take remainingToFillBuffer) r.position
    (some buffer,
      -- what the generator does when it is resumed
      { buffer := buffer
        position := 0
        remainingValue := r.remainingValue.drop remainingToFillBuffer
        size := by
          refine (setAt_length ?_).trans r.size
          have hroom := r.room
          rw [List.length_take, r.size]
          omega
        room := Nat.lt_of_le_of_lt (Nat.zero_le _) r.room })

/-- the chunk that is left when the stream is over -/
def last (r : ChunkStreamReader n) : Option Bytes :=
  if r.position > 0 then some (r.buffer.take r.position) else none

/-- the bytes that were read and not yielded -/
def held (r : ChunkStreamReader n) : Bytes := r.buffer.take r.position ++ r.remainingValue

section
variable {r r' : ChunkStreamReader n} {c : Bytes}

theorem held_ofSize (hn : 0 < n) : (ofSize hn).held = [] := rfl

theorem held_receive {value : Bytes} (h : r.remainingValue = []) :
    (r.receive value).held = r.held ++ value := by
  show r.buffer.take r.position ++ value = r.buffer.take r.position ++ r.remainingValue ++ value
  rw [h, List.append_nil]

/-- a chunk that is yielded is full, and is what was read first -/
theorem pull_some (h : r.pull = (some c, r')) : c.length = n ∧ r.held = c ++ r'.held := by
  have hroom := r.room
  have hsize := r.size
  unfold pull at h
  split at h
  · cases h
  · split at h
    · cases h
    · rename_i hshort
      obtain ⟨hc, hr⟩ := Prod.mk.inj h
      have hc := Option.some.inj hc
      have hlength : (r.remainingValue.take (n - r.position)).length = n - r.position := by
        rw [List.length_take]
        omega
      have hc' : c = r.buffer.take r.position ++ r.remainingValue.take (n - r.position) := by
        rw [← hc]
        unfold setAt
        rw [List.drop_of_length_le (by omega), List.append_nil]
      refine ⟨?_, ?_⟩
      · rw [hc', List.length_append, hlength, List.length_take]
        omega
      · rw [← hr, hc']
        show r.buffer.take r.position ++ r.remainingValue = _ ++ _ ++ ([] ++ r.remainingValue.drop _)
        rw [List.nil_append, List.append_assoc, List.take_append_drop]

theorem pull_none (h : r.pull = (none, r')) : r'.remainingValue = [] ∧ r'.held = r.held := by
  have hroom := r.room
  have hsize := r.size
  unfold pull at h
  split at h
  · rename_i hnil
    obtain ⟨_, rfl⟩ := Prod.mk.inj h
    exact ⟨hnil, rfl⟩
  · split at h
    · obtain ⟨_, hr⟩ := Prod.mk.inj h
      rw [← hr]
      refine ⟨rfl, ?_⟩
      show (setAt _ _ _).take (r.position + r.remainingValue.length) ++ [] = _
      rw [setAt_take (by omega), List.append_nil]
      rfl
    · cases h

/-- each chunk takes something off the value -/
theorem pull_shorter (h : r.pull = (some c, r')) :
    r'.remainingValue.length < r.remainingValue.length := by
  have hroom := r.room
  unfold pull at h
  split at h
  · cases h
  · split at h
    · cases h
    · rename_i hnil _
      obtain ⟨_, hr⟩ := Prod.mk.inj h
      have hpos := List.length_pos_of_ne_nil hnil
      rw [← hr]
      show (r.remainingValue.drop (n - r.position)).length < _
      rw [List.length_drop]
      omega

theorem last_some (h : r.last = some c) (hval : r.remainingValue = []) :
    r.held = c ∧ 1 ≤ c.length ∧ c.length ≤ n := by
  have hroom := r.room
  have hsize := r.size
  unfold last at h
  split at h
  · have hc := Option.some.inj h
    refine ⟨?_, ?_⟩
    · rw [← hc]
      unfold held
      rw [hval, List.append_nil]
    · rw [← hc, List.length_take]
      omega
  · cases h

theorem last_none (h : r.last = none) (hval : r.remainingValue = []) : r.held = [] := by
  unfold last at h
  split at h
  · cases h
  · rename_i hpos
    unfold held
    rw [hval, Nat.eq_zero_of_not_pos hpos]
    rfl

end

/-! ## the generator -/

/-- the chunks that are yielded before the stream is read again; each takes a byte of the value at least -/
def yielded : Nat → ChunkStreamReader n → List Bytes × ChunkStreamReader n
  | 0, r => ([], r.pull.2)
  | fuel + 1, r =>
    match r.pull with
    | (none, r) => ([], r)
    | (some chunk, r) => (chunk :: (yielded fuel r).1, (yielded fuel r).2)

theorem yielded_spec (fuel : Nat) (r : ChunkStreamReader n) (hfuel : r.remainingValue.length ≤ fuel) :
    (∀ c ∈ (yielded fuel r).1, c.length = n) ∧ (yielded fuel r).2.remainingValue = [] ∧
      (yielded fuel r).1.flatten ++ (yielded fuel r).2.held = r.held := by
  induction fuel generalizing r with
  | zero =>
    have hnil : r.remainingValue = [] := List.eq_nil_of_length_eq_zero (Nat.le_zero.mp hfuel)
    have hpull : r.pull = (none, r) := by
      unfold pull
      rw [if_pos hnil]
    unfold yielded
    rw [hpull]
    exact ⟨nofun, hnil, rfl⟩
  | succ fuel ih =>
    unfold yielded
    split
    · rename_i r' hpull
      obtain ⟨hnil, hheld⟩ := pull_none hpull
      exact ⟨nofun, hnil, hheld⟩
    · rename_i c r' hpull
      obtain ⟨hfull, hheld⟩ := pull_some hpull
      have hshorter := pull_shorter hpull
      obtain ⟨hall, hnil, hrest⟩ := ih r' (by omega)
      refine ⟨List.forall_mem_cons.mpr ⟨hfull, hall⟩, hnil, ?_⟩
      rw [hheld, ← hrest, List.flatten_cons, List.append_assoc]

/-- `for (value of stream)`: the chunks and where the generator is at the end of the stream -/
def readAll : List Bytes → ChunkStreamReader n → List Bytes × ChunkStreamReader n
  | [], r => ([], r)
  | value :: values, r =>
    let (chunks, r) := yielded value.length (r.receive value)
    (chunks ++ (readAll values r).1, (readAll values r).2)

theorem readAll_spec (values : List Bytes) (r : ChunkStreamReader n) (hval : r.remainingValue = []) :
    (∀ c ∈ (readAll values r).1, c.length = n) ∧ (readAll values r).2.remainingValue = [] ∧
      (readAll values r).1.flatten ++ (readAll values r).2.held = r.held ++ values.flatten := by
  induction values generalizing r with
  | nil => exact ⟨nofun, hval, (List.append_nil _).symm⟩
  | cons value values ih =>
    obtain ⟨hfull, hnil, hheld⟩ := yielded_spec value.length (r.receive value) le_rfl
    obtain ⟨hall, hend, hrest⟩ := ih _ hnil
    refine ⟨fun c hc => ?_, hend, ?_⟩
    · rcases List.mem_append.mp hc with hc | hc
      · exact hfull c hc
      · exact hall c hc
    · show (_ ++ (readAll values _).1).flatten ++ (readAll values _).2.held = _
      rw [List.flatten_append, List.append_assoc, hrest, ← List.append_assoc, hheld,
        held_receive hval, List.flatten_cons, List.append_assoc]

end ChunkStreamReader

/-- the chunks of a stream that delivers `values` and ends -/
def iterateChunks {n : Nat} (hn : 0 < n) (values : List Bytes) : List Bytes :=
  let (chunks, r) := ChunkStreamReader.readAll values (.ofSize hn)
  chunks ++ r.last.toList

/-- empty values and values across the end of a chunk do not matter -/
example : iterateChunks (by decide : 0 < 2) [[1, 2, 3], [], [4, 5]] = [[1, 2], [3, 4], [5]] := by decide

section
variable {n : Nat} {cs : List Bytes}

theorem exact_of_full (hn : 0 < n) (hcs : ∀ c ∈ cs, c.length = n) : Exact n cs := by
  induction cs with
  | nil => exact exact_nil
  | cons c cs ih =>
    exact (ih fun d hd => hcs d (List.mem_cons_of_mem _ hd)).cons hn (hcs c List.mem_cons_self)

/-- full chunks, and a last one -/
theorem exact_concat {c : Bytes} (hn : 0 < n) (hcs : ∀ c ∈ cs, c.length = n) (hc : 1 ≤ c.length)
    (hle : c.length ≤ n) : Exact n (cs ++ [c]) := by
  induction cs with
  | nil => exact exact_singleton.mpr ⟨hc, hle⟩
  | cons d cs ih =>
    exact (ih fun c hc => hcs c (List.mem_cons_of_mem _ hc)).cons hn (hcs d List.mem_cons_self)

theorem iterateChunks_exact (hn : 0 < n) (values : List Bytes) :
    Exact n (iterateChunks hn values) ∧ (iterateChunks hn values).flatten = values.flatten := by
  obtain ⟨hfull, hval, hheld⟩ := ChunkStreamReader.readAll_spec values (.ofSize hn) rfl
  rw [ChunkStreamReader.held_ofSize, List.nil_append] at hheld
  show Exact n (_ ++ Option.toList _) ∧ (_ ++ Option.toList _).flatten = _
  cases hlast : (ChunkStreamReader.readAll values (.ofSize hn)).2.last with
  | none =>
    rw [ChunkStreamReader.last_none hlast hval, List.append_nil] at hheld
    rw [Option.toList_none, List.append_nil]
    exact ⟨exact_of_full hn hfull, hheld⟩
  | some c =>
    obtain ⟨hc, hpos, hle⟩ := ChunkStreamReader.last_some hlast hval
    rw [hc] at hheld
    refine ⟨exact_concat hn hfull hpos hle, ?_⟩
    rw [Option.toList_some, List.flatten_append, List.flatten_singleton]
    exact hheld

end

/-! ## the two clients -/

def FILE_CHUNK_SIZE : Nat := 4 * 1024 * 1024

theorem FILE_CHUNK_SIZE_pos : 0 < FILE_CHUNK_SIZE := by decide

theorem chunks_agree (K : Crates) (up : ProtonFileUploader) (d : Draft) (values : List Bytes)
    {fuel : Nat} {tr : Trace host} {rest : Bytes} {s : Chunks K}
    (hfuel : (iterateChunks FILE_CHUNK_SIZE_pos values).length < fuel)
    (hpath : Path Reads values.flatten tr rest)
    (hrun : Runs (readBlocks K up d fuel (Chunks.empty K)).run tr (.done (.ok s))) :
    List.Forall₂ (Sealed up d) (iterateChunks FILE_CHUNK_SIZE_pos values) s.blocks ∧
      s.blockSizes = (iterateChunks FILE_CHUNK_SIZE_pos values).map List.length ∧
      s.hashed = values.flatten := by
  obtain ⟨hexact, hflat⟩ := iterateChunks_exact FILE_CHUNK_SIZE_pos values
  rw [← hflat] at hpath
  obtain ⟨_, ⟨new, hblocks, hsealed⟩, hsizes, hhashed⟩ :=
    (readBlocks_triple hexact hfuel (Chunks.empty K)) tr rest _ hrun hpath
  have hnew : s.blocks = new := hblocks
  have hsizes : s.blockSizes = (iterateChunks FILE_CHUNK_SIZE_pos values).map List.length := hsizes
  have hhashed : s.hashed = (iterateChunks FILE_CHUNK_SIZE_pos values).flatten := hhashed
  exact ⟨hnew ▸ hsealed, hsizes, hhashed.trans hflat⟩

/-- the loop over the stream `[1, 2, 3]`, read in the given way -/
def threeBytes (reads : Trace host) : Trace host :=
  ⟨.isCancelled .upload, false⟩ :: reads ++
    [⟨.coins, (0 : Nat)⟩, ⟨.coins, (0 : Nat)⟩, ⟨.coins, (0 : Nat)⟩, ⟨.sendProgress 3, ()⟩]

def readAtOnce : Trace host :=
  [⟨.read 4194304, .ok ⟨[1, 2, 3], by decide⟩⟩, ⟨.read 4194301, .ok ⟨[], by decide⟩⟩]

theorem threeBytes_reads {reads : Trace host} (h : Path Reads [1, 2, 3] reads []) :
    Path Reads [1, 2, 3] (threeBytes reads) [] :=
  .cons (.other rfl) (h.append
    (.cons (.other rfl) (.cons (.other rfl) (.cons (.other rfl) (.one (.other rfl))))))

theorem readAtOnce_reads : Path Reads [1, 2, 3] readAtOnce [] :=
  .cons (.read [1, 2, 3] [] _ nofun) (.one (.read [] [] _ fun _ => rfl))

/-- the one client gets three bytes at once, the other in two parts -/
theorem threeBytes_agree :
    iterateChunks FILE_CHUNK_SIZE_pos [[1], [], [2, 3]] = [[1, 2, 3]] ∧ ∃ s : Chunks goodCrates,
      Runs (readBlocks goodCrates smallUploader smallDraft 2 (Chunks.empty goodCrates)).run
        (threeBytes readAtOnce) (.done (.ok s)) ∧
      List.Forall₂ (Sealed smallUploader smallDraft)
        (iterateChunks FILE_CHUNK_SIZE_pos [[1], [], [2, 3]]) s.blocks := by
  obtain ⟨hexact, hflat⟩ := iterateChunks_exact FILE_CHUNK_SIZE_pos [[1], [], [2, 3]]
  have hchunks : iterateChunks FILE_CHUNK_SIZE_pos [[1], [], [2, 3]] = [[1, 2, 3]] :=
    hexact.unique FILE_CHUNK_SIZE_pos (exact_singleton.mpr (by decide)) hflat
  have hs : Runs (readBlocks goodCrates smallUploader smallDraft 2 (Chunks.empty goodCrates)).run
      (threeBytes readAtOnce) (.done (.ok _)) :=
    .call (.call (.call (.call (.call (.call (.call (.ret _)))))))
  have hfuel : (iterateChunks FILE_CHUNK_SIZE_pos [[1], [], [2, 3]]).length < 2 := by
    rw [hchunks]
    decide
  have h := chunks_agree goodCrates smallUploader smallDraft [[1], [], [2, 3]] hfuel
    (threeBytes_reads readAtOnce_reads) hs
  exact ⟨hchunks, _, hs, h.1⟩

end ProtonDrive.Reference
