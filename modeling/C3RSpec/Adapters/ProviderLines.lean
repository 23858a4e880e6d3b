import C3RSpec.Adapters.TextStream

/-!
# Lines that a provider sends

`c3r/adapters/providers.py:256–367`, from the side of the provider. A stream of lines that are
understood, with the mark of the end after them, is delivered line by line.
-/

namespace C3RSpec.Adapters

open Base

/-! ### One line -/

/-- The bytes that are still to come. -/
def ByteSource.Holds (source : ByteSource) (bytes : Bytes) : Prop :=
  ∀ n, source.byte (source.position + n) = bytes[n]?

private theorem lineFrom_eq {byte : Nat → Option UInt8} {line rest : Bytes} {limit position : Nat}
    (hbytes : ∀ n, byte (position + n) = (line ++ 10 :: rest)[n]?) (hline : 10 ∉ line)
    (hlimit : line.length < limit) : lineFrom byte limit position = line ++ [10] := by
  induction line generalizing limit position with
  | nil =>
    obtain ⟨limit, rfl⟩ := Nat.exists_eq_succ_of_ne_zero (Nat.ne_of_gt hlimit)
    have hfeed : byte position = some 10 := hbytes 0
    rw [lineFrom, hfeed]
    rfl
  | cons b line ih =>
    obtain ⟨limit, rfl⟩ := Nat.exists_eq_succ_of_ne_zero (Nat.ne_of_gt (Nat.zero_lt_of_lt hlimit))
    have hfirst : byte position = some b := hbytes 0
    have hne : b ≠ 10 := fun h ↦ hline (h ▸ List.mem_cons_self)
    rw [lineFrom, hfirst]
    dsimp only
    rw [if_neg hne, List.cons_append, ih]
    · intro n
      have hnext := hbytes (n + 1)
      rw [Nat.add_comm n 1, ← Nat.add_assoc, Nat.add_comm 1 n] at hnext
      exact hnext
    · exact fun h ↦ hline (List.mem_cons_of_mem b h)
    · exact Nat.succ_lt_succ_iff.mp hlimit

/-- A line is read up to its line feed, whatever comes after the bytes. -/
theorem ByteSource.Holds.readline {source : ByteSource} {line rest : Bytes} {limit : Nat}
    (h : source.Holds (line ++ 10 :: rest)) (hline : 10 ∉ line) (hlimit : line.length < limit) :
    ∃ after, source.readline limit = (.ok (line ++ [10]), after) ∧ after.Holds rest := by
  have hread := lineFrom_eq h hline hlimit
  have hrest : ∀ n, source.byte (source.position + (line ++ [10]).length + n) = rest[n]? := by
    intro n
    rw [Nat.add_assoc, h, List.length_append, List.length_singleton,
      List.getElem?_append_right (by omega),
      show line.length + 1 + n - line.length = n + 1 by omega, List.getElem?_cons_succ]
  unfold ByteSource.readline
  rw [hread]
  dsimp only
  split
  · rw [if_neg]
    · exact ⟨_, rfl, hrest⟩
    · rintro ⟨-, hlast⟩
      exact hlast List.getLast?_concat
  · exact ⟨_, rfl, hrest⟩

namespace TextGenerationStream

variable [FloatText] [JsonLimits] [JsonBytes]

/-- The data of a line that tells a chunk. -/
structure Tells (data : Bytes) (chunk : Chunk) : Prop where
  oneLine : 10 ∉ data
  stripped : Bytes.strip (data ++ [10]) = data
  notDone : data ≠ doneMark
  short : data.length + 7 ≤ maxLineBytes
  reads : (loadsBytes data >>= chunkOf) = .ok chunk

omit [FloatText] [JsonLimits] [JsonBytes] in
private theorem notMem_dataField : (10 : UInt8) ∉ dataField := by
  decide +kernel

/-- A call that finds a line of data. -/
private theorem next_of_line {s : TextGenerationStream} {data rest : Bytes} (hopen : s.finished = false)
    (hholds : s.source.Holds ((dataField ++ data) ++ 10 :: rest)) (hline : 10 ∉ data)
    (hshort : data.length + 7 ≤ maxLineBytes)
    (hlimit : s.bytes + (data.length + 7) ≤ maxResponseBytes) :
    ∃ source, source.Holds rest ∧
      s.next = readData { s with source, bytes := s.bytes + (data.length + 7) }
        (Bytes.strip (data ++ [10])) := by
  have hlength : (dataField ++ data).length = data.length + 6 := by
    rw [List.length_append]
    exact Nat.add_comm 6 _
  have hnotMem : 10 ∉ dataField ++ data := by
    rw [List.mem_append]
    exact not_or.mpr ⟨notMem_dataField, hline⟩
  have hfits : (dataField ++ data).length < maxLineBytes + 1 := by omega
  obtain ⟨source, hread, hrest⟩ := hholds.readline hnotMem hfits
  have hsize : (dataField ++ data ++ [10]).length = data.length + 7 := by
    rw [List.length_append, hlength, List.length_singleton]
  have hdrop : (dataField ++ data ++ [10]).drop 6 = data ++ [10] := by
    rw [List.append_assoc]
    exact @List.drop_left _ dataField (data ++ [10])
  have hprefix : Bytes.startsWith dataField (dataField ++ data ++ [10]) = true := by
    rw [Bytes.startsWith, List.isPrefixOf_iff_prefix, List.append_assoc]
    exact List.prefix_append _ _
  refine ⟨source, hrest, ?_⟩
  rw [next, if_neg (by rw [hopen]; exact Bool.false_ne_true), readLines, hread]
  dsimp only
  rw [hsize, if_neg (by omega), if_neg (by omega), if_pos hprefix, hdrop]

/-- A line that tells a chunk. -/
theorem next_of_tells {s : TextGenerationStream} {data rest : Bytes} {chunk : Chunk}
    (hopen : s.finished = false) (hholds : s.source.Holds ((dataField ++ data) ++ 10 :: rest))
    (htells : Tells data chunk) (hlimit : s.bytes + (data.length + 7) ≤ maxResponseBytes) :
    ∃ t, s.next = (.item chunk, t) ∧ t.finished = false ∧ t.source.Holds rest ∧
      t.bytes = s.bytes + (data.length + 7) ∧
      t.sawFinish = (s.sawFinish || chunk.finish.isSome) := by
  obtain ⟨source, hrest, hnext⟩ := next_of_line hopen hholds htells.oneLine htells.short hlimit
  rw [htells.stripped, readData, if_neg htells.notDone, htells.reads] at hnext
  exact ⟨_, hnext, hopen, hrest, rfl, rfl⟩

/-- The mark of the end, after a finish reason. -/
theorem next_of_done {s : TextGenerationStream} {rest : Bytes} (hopen : s.finished = false)
    (hholds : s.source.Holds ((dataField ++ doneMark) ++ 10 :: rest)) (hsaw : s.sawFinish = true)
    (hlimit : s.bytes + (doneMark.length + 7) ≤ maxResponseBytes) :
    ∃ t, s.next = (.stop, t) := by
  obtain ⟨source, -, hnext⟩ := next_of_line hopen hholds (by decide +kernel) (by decide +kernel) hlimit
  have hstrip : Bytes.strip (doneMark ++ [10]) = doneMark := by decide +kernel
  rw [hstrip, readData, if_pos rfl, if_pos hsaw] at hnext
  exact ⟨_, hnext⟩

/-! ### Whole streams -/

/-- The lines of a stream, and the mark of its end. -/
def streamBytes : List Bytes → Bytes
  | [] => (dataField ++ doneMark) ++ 10 :: []
  | data :: rest => (dataField ++ data) ++ 10 :: streamBytes rest

/-- What lines tell is delivered. -/
private theorem delivers_from {lines : List (Bytes × Chunk)} (htells : ∀ l ∈ lines, Tells l.1 l.2)
    {s : TextGenerationStream} (hopen : s.finished = false)
    (hholds : s.source.Holds (streamBytes (lines.map Prod.fst)))
    (hlimit : s.bytes + (streamBytes (lines.map Prod.fst)).length ≤ maxResponseBytes)
    (hfinish : s.sawFinish = true ∨ ∃ l ∈ lines, l.2.finish.isSome = true) :
    Delivers s (lines.map Prod.snd) .stopped := by
  induction lines generalizing s with
  | nil =>
    obtain hsaw | ⟨l, hl, -⟩ := hfinish
    · obtain ⟨t, hnext⟩ := next_of_done hopen hholds hsaw hlimit
      exact .stopped hnext
    · cases hl
  | cons l lines ih =>
    obtain ⟨data, chunk⟩ := l
    have hlength : (streamBytes (((data, chunk) :: lines).map Prod.fst)).length =
        data.length + 7 + (streamBytes (lines.map Prod.fst)).length := by
      change ((dataField ++ data) ++ 10 :: streamBytes (lines.map Prod.fst)).length = _
      rw [List.length_append, List.length_append, List.length_cons]
      change 6 + data.length + _ = _
      omega
    rw [hlength] at hlimit
    have hfirst : Tells data chunk := htells _ List.mem_cons_self
    have hholds : s.source.Holds ((dataField ++ data) ++ 10 :: streamBytes (lines.map Prod.fst)) :=
      hholds
    obtain ⟨t, hnext, hopen', hholds', hbytes, hsaw⟩ := next_of_tells hopen hholds hfirst (by omega)
    refine .chunk hnext (ih (fun l hl ↦ htells l (List.mem_cons_of_mem _ hl)) hopen' hholds' ?_ ?_)
    · omega
    · rw [hsaw, Bool.or_eq_true]
      obtain hfinish | ⟨l, hl, hsome⟩ := hfinish
      · exact .inl (.inl hfinish)
      · obtain rfl | hl := List.mem_cons.mp hl
        · exact .inl (.inr hsome)
        · exact .inr ⟨l, hl, hsome⟩

/-- A stream of lines that are understood is delivered, and it stops. -/
theorem delivers_streamBytes {lines : List (Bytes × Chunk)} (htells : ∀ l ∈ lines, Tells l.1 l.2)
    (hlimit : (streamBytes (lines.map Prod.fst)).length ≤ maxResponseBytes)
    (hfinish : ∃ l ∈ lines, l.2.finish.isSome = true) :
    Delivers (.opened (fun n ↦ (streamBytes (lines.map Prod.fst))[n]?) none) (lines.map Prod.snd)
      .stopped := by
  refine delivers_from htells rfl (fun n ↦ ?_) ?_ (.inr hfinish)
  · change (streamBytes (lines.map Prod.fst))[0 + n]? = _
    rw [Nat.zero_add]
  · change 0 + _ ≤ _
    omega

end TextGenerationStream

end C3RSpec.Adapters
