import GameSdk.Nanopb
import GameSdk.PieceQueue

/-!
# Streams of bytes (`protobuf_util.cpp`)

The callbacks through which nanopb reads and writes. `VectorStream` is a view on a
vector, `ByteStream` one on memory from `malloc`. A buffer that is `NULL` is `none`; a
read without a buffer skips. The memory is never short: `malloc` and `realloc` succeed,
and give a block of the size that they are asked for.

Both streams are structures with the bounds of their indices. `IsByteQueue` is what a stream is for:
what is read is what was written, in order, and a read that asks for more than there is fails. For
the vectors it holds always; for the other stream there is a condition.
-/

namespace GameSdk

open PieceQueue (run)

/-- A call of nanopb. -/
inductive StreamCall where
  | write (buf : Option (List UInt8))
  | read (buffered : Bool) (count : ℕ)
  deriving DecidableEq, Repr

/-- What the call is to a queue of bytes. -/
def StreamCall.onQueue : StreamCall → PieceQueue.Call UInt8
  | .write buf => .write (buf.getD [])
  | .read buffered count => .read buffered count

/-- `Read` of both streams, at position `it` of the first `size` bytes: whether it
succeeds, the bytes in the buffer, and the new position. -/
def readBytes (bytes : List UInt8) (size it : ℕ) (buffered : Bool) (count : ℕ) :
    (Bool × List UInt8) × ℕ :=
  if buffered = false then
    if count > size - it then ((false, []), size) else ((true, []), it + count)
  else
    let n := min count (size - it)
    ((decide (n = count), (bytes.drop it).take n), it + n)

/-- Skipping and copying move the position alike. -/
theorem readBytes_eq {bytes : List UInt8} {size it : ℕ} (hit : it ≤ size) (buffered : Bool)
    (count : ℕ) :
    readBytes bytes size it buffered count =
      ((decide (count ≤ size - it),
          if buffered then ((bytes.take size).drop it).take count else []),
        min (it + count) size) := by
  rw [readBytes]
  cases buffered with
  | false =>
    rw [if_pos rfl]
    by_cases h : count > size - it
    · have hend : min (it + count) size = size := by omega
      rw [if_pos h, hend, decide_eq_false (by omega)]
      rfl
    · have hend : min (it + count) size = it + count := by omega
      rw [if_neg h, hend, decide_eq_true (by omega)]
      rfl
  | true =>
    have hn : it + min count (size - it) = min (it + count) size := by omega
    have hcount : min count (size - it) = count ↔ count ≤ size - it := min_eq_left_iff
    rw [if_neg (by decide), if_pos rfl]
    dsimp only
    rw [hn, List.drop_take, List.take_take, decide_eq_decide.mpr hcount]

theorem readBytes_le {bytes : List UInt8} {size it : ℕ} (hit : it ≤ size) (buffered : Bool)
    (count : ℕ) : (readBytes bytes size it buffered count).2 ≤ size := by
  rw [readBytes_eq hit]
  exact min_le_right _ _

/-! ## Vectors

Reads and writes of a vector, one call and any number of calls.
-/

/-- A vector and how much of it has been read. -/
structure VectorStream where
  vec : List UInt8
  it : ℕ
  it_le : it ≤ vec.length

namespace VectorStream

/-- Nothing has been written. -/
def empty : VectorStream := ⟨[], 0, le_rfl⟩

/-- `VectorStream::Read`, with or without a buffer. -/
def read (s : VectorStream) (buffered : Bool) (count : ℕ) : (Bool × List UInt8) × VectorStream :=
  let r := readBytes s.vec s.vec.length s.it buffered count
  (r.1, { s with it := r.2, it_le := readBytes_le s.it_le buffered count })

/-- `VectorStream::Write`: the bytes are appended. -/
def write (s : VectorStream) (buf : Option (List UInt8)) : Bool × VectorStream :=
  match buf with
  | none => (true, s)
  | some buf =>
    if buf.length = 0 then (true, s)
    else (true, { s with
      vec := s.vec ++ buf
      it_le := s.it_le.trans (List.length_append ▸ Nat.le_add_right ..) })

/-- One call. -/
def step (s : VectorStream) : StreamCall → (Bool × List UInt8) × VectorStream
  | .write buf => (((s.write buf).1, []), (s.write buf).2)
  | .read buffered count => s.read buffered count

/-- The bytes that are still to be read. -/
def remaining (s : VectorStream) : List UInt8 := s.vec.drop s.it

variable (s : VectorStream)

theorem length_remaining : s.remaining.length = s.vec.length - s.it := List.length_drop

theorem write_eq (buf : Option (List UInt8)) :
    (s.write buf).1 = true ∧ (s.write buf).2.vec = s.vec ++ buf.getD [] ∧
      (s.write buf).2.it = s.it := by
  rcases buf with _ | buf
  · exact ⟨rfl, (List.append_nil _).symm, rfl⟩
  · rw [write]
    by_cases h : buf.length = 0
    · obtain rfl := List.length_eq_zero_iff.mp h
      exact ⟨rfl, (List.append_nil _).symm, rfl⟩
    · rw [if_neg h]
      exact ⟨rfl, rfl, rfl⟩

/-- The messages are written through this stream. -/
theorem write_some (buf : List UInt8) :
    (s.write (some buf)).2.vec = (Nano.VectorStream.write s.vec buf).2 := by
  rw [(s.write_eq (some buf)).2.1, Nano.VectorStream.write_eq]
  rfl

theorem read_eq (buffered : Bool) (count : ℕ) :
    (s.read buffered count).1 =
        (decide (count ≤ s.remaining.length), if buffered then s.remaining.take count else []) ∧
      (s.read buffered count).2.vec = s.vec ∧
      (s.read buffered count).2.it = min (s.it + count) s.vec.length := by
  have hread : readBytes s.vec s.vec.length s.it buffered count = _ :=
    readBytes_eq s.it_le buffered count
  rw [List.take_length, ← length_remaining] at hread
  exact ⟨congrArg Prod.fst hread, rfl, congrArg Prod.snd hread⟩

theorem remaining_read (buffered : Bool) (count : ℕ) :
    (s.read buffered count).2.remaining = s.remaining.drop count := by
  obtain ⟨-, hvec, hit⟩ := s.read_eq buffered count
  rw [remaining, hvec, hit, remaining, List.drop_drop]
  rcases le_total (s.it + count) s.vec.length with hle | hge
  · rw [min_eq_left hle]
  · rw [min_eq_right hge, List.drop_length, List.drop_of_length_le hge]

theorem remaining_write (buf : Option (List UInt8)) :
    (s.write buf).2.remaining = s.remaining ++ buf.getD [] := by
  obtain ⟨-, hvec, hit⟩ := s.write_eq buf
  rw [remaining, hvec, hit, List.drop_append_of_le_length s.it_le, remaining]

/-- One call on the stream is one on the queue. -/
theorem step_eq (call : StreamCall) :
    (s.step call).1 = (PieceQueue.step s.remaining call.onQueue).1 ∧
      (s.step call).2.remaining = (PieceQueue.step s.remaining call.onQueue).2 := by
  cases call with
  | write buf => exact ⟨by rw [step, (s.write_eq buf).1]; rfl, s.remaining_write buf⟩
  | read buffered count => exact ⟨(s.read_eq buffered count).1, s.remaining_read buffered count⟩

/-- Any calls, in any order. -/
theorem run_eq (calls : List StreamCall) :
    (run step s calls).1 = (run PieceQueue.step s.remaining (calls.map StreamCall.onQueue)).1 ∧
      (run step s calls).2.remaining =
        (run PieceQueue.step s.remaining (calls.map StreamCall.onQueue)).2 := by
  have hsim := PieceQueue.run_sim (f := id) (R := fun (s : VectorStream) q => s.remaining = q)
    (fun s _ call h => h ▸ s.step_eq call) (Eq.refl s.remaining) calls
  rwa [List.map_id] at hsim

theorem answers_run_write (bufs : List (Option (List UInt8))) :
    (run step s (bufs.map .write)).1 = bufs.map fun _ => (true, []) := by
  obtain ⟨hanswers, -⟩ := s.run_eq (bufs.map .write)
  have hqueue : (bufs.map StreamCall.write).map StreamCall.onQueue =
      (bufs.map (·.getD [])).map .write := by
    rw [List.map_map, List.map_map]
    rfl
  rwa [hqueue, PieceQueue.run_write, List.map_map] at hanswers

theorem vec_run_write (bufs : List (Option (List UInt8))) :
    (run step s (bufs.map .write)).2.vec = s.vec ++ (bufs.map (·.getD [])).flatten ∧
      (run step s (bufs.map .write)).2.it = s.it := by
  induction bufs generalizing s with
  | nil => exact ⟨(List.append_nil _).symm, rfl⟩
  | cons buf bufs ih =>
    obtain ⟨-, hvec, hit⟩ := s.write_eq buf
    obtain ⟨hvecs, hits⟩ := ih (s.write buf).2
    refine ⟨hvecs.trans ?_, hits.trans hit⟩
    rw [hvec, List.map_cons, List.flatten_cons, List.append_assoc]

theorem vec_run_read (reads : List (Bool × ℕ)) :
    (run step s (reads.map fun r => .read r.1 r.2)).2.vec = s.vec := by
  refine PieceQueue.run_keeps (g := vec) ?_ s
  rw [List.forall_mem_map]
  intro r _ s
  exact (s.read_eq r.1 r.2).2.1

/-- What makes the stream a queue of bytes. -/
structure IsByteQueue (s : VectorStream) : Prop where
  /-- Writes append their bytes, and the bytes before stay. -/
  writes : ∀ bufs : List (Option (List UInt8)),
    (run step s (bufs.map .write)).1 = bufs.map (fun _ => (true, [])) ∧
      (run step s (bufs.map .write)).2.vec = s.vec ++ (bufs.map (·.getD [])).flatten ∧
      (run step s (bufs.map .write)).2.it = s.it
  /-- However the bytes are taken apart, the pieces come in order. -/
  pieces : ∀ (pieces : List (Bool × List UInt8)) (rest : List UInt8),
    s.remaining = (pieces.map Prod.snd).flatten ++ rest →
      (run step s (pieces.map fun p => .read p.1 p.2.length)).1 =
        pieces.map (fun p => (true, if p.1 then p.2 else [])) ∧
      (run step s (pieces.map fun p => .read p.1 p.2.length)).2.vec = s.vec ∧
      (run step s (pieces.map fun p => .read p.1 p.2.length)).2.remaining = rest
  /-- A read of more than there is fails, at the end of the vector. -/
  short : ∀ buffered count,
    ((s.read buffered count).1.1 = false ↔ s.remaining.length < count) ∧
      ((s.read buffered count).1.1 = false →
        (s.read buffered count).1.2 = (if buffered then s.remaining else []) ∧
        (s.read buffered count).2.vec = s.vec ∧ (s.read buffered count).2.it = s.vec.length)
  /-- Calls in any order are answered as by a queue. -/
  queue : ∀ calls : List StreamCall,
    (run step s calls).1 = (run PieceQueue.step s.remaining (calls.map StreamCall.onQueue)).1 ∧
      (run step s calls).2.remaining =
        (run PieceQueue.step s.remaining (calls.map StreamCall.onQueue)).2

/-- **`VectorStream`** is a queue of bytes. -/
theorem isByteQueue : s.IsByteQueue where
  writes bufs := ⟨s.answers_run_write bufs, s.vec_run_write bufs⟩
  pieces pieces rest hrest := by
    obtain ⟨hanswers, hremaining⟩ := s.run_eq (pieces.map fun p => .read p.1 p.2.length)
    have hqueue : (pieces.map fun p => StreamCall.read p.1 p.2.length).map StreamCall.onQueue =
        pieces.map fun p => .read p.1 p.2.length := by
      rw [List.map_map]
      rfl
    rw [hqueue, hrest, PieceQueue.run_read_pieces] at hanswers hremaining
    have hvec := s.vec_run_read (pieces.map fun p => (p.1, p.2.length))
    rw [List.map_map] at hvec
    exact ⟨hanswers, hvec, hremaining⟩
  short buffered count := by
    obtain ⟨hanswer, hvec, hit⟩ := s.read_eq buffered count
    have hqueue : (s.read buffered count).1 =
        (PieceQueue.step s.remaining (.read buffered count)).1 := hanswer
    have hiff := PieceQueue.step_read_eq_false_iff s.remaining buffered count
    rw [← hqueue] at hiff
    refine ⟨hiff, fun hfalse => ?_⟩
    have hlt := hiff.mp hfalse
    rw [PieceQueue.step_read_of_lt hlt] at hqueue
    rw [length_remaining] at hlt
    exact ⟨congrArg Prod.snd hqueue, hvec, hit.trans (by omega)⟩
  queue := s.run_eq

end VectorStream

/-! ## Memory from `malloc`

`Write` reallocates, but never changes `size`, which is where it writes and where reading ends.
-/

/-- A block of memory and how much of it has been read. -/
structure ByteStream where
  /-- the block that `vec` points to -/
  vec : Option (List UInt8)
  size : ℕ
  it : ℕ
  size_le : size ≤ (vec.getD []).length
  it_le : it ≤ size

namespace ByteStream

/-- `{nullptr, 0, 0}` -/
def empty : ByteStream := ⟨none, 0, 0, le_rfl, le_rfl⟩

/-- `ByteStream::Read`, with or without a buffer. -/
def read (s : ByteStream) (buffered : Bool) (count : ℕ) : (Bool × List UInt8) × ByteStream :=
  let r := readBytes (s.vec.getD []) s.size s.it buffered count
  (r.1, { s with it := r.2, it_le := readBytes_le s.it_le buffered count })

theorem size_le_write (s : ByteStream) (buf : List UInt8) :
    s.size ≤ ((s.vec.getD []).take s.size ++ buf).length := by
  rw [List.length_append, List.length_take_of_le s.size_le]
  exact Nat.le_add_right ..

/-- The block is made `sz + count` bytes long, and the bytes are copied behind the first
`sz`. The size is not changed. -/
def write (s : ByteStream) (buf : Option (List UInt8)) : Bool × ByteStream :=
  match buf with
  | none => (true, s)
  | some buf =>
    if buf.length = 0 then (true, s)
    else (true, { s with
      vec := some ((s.vec.getD []).take s.size ++ buf)
      size_le := s.size_le_write buf })

/-- One call. -/
def step (s : ByteStream) : StreamCall → (Bool × List UInt8) × ByteStream
  | .write buf => (((s.write buf).1, []), (s.write buf).2)
  | .read buffered count => s.read buffered count

variable (s : ByteStream)

/-- The bytes that the stream is a view on. -/
def bytes (s : ByteStream) : List UInt8 := (s.vec.getD []).take s.size

theorem length_bytes : s.bytes.length = s.size := List.length_take_of_le s.size_le

theorem write_eq (buf : Option (List UInt8)) :
    (s.write buf).1 = true ∧ (s.write buf).2.size = s.size ∧ (s.write buf).2.it = s.it := by
  rcases buf with _ | buf
  · exact ⟨rfl, rfl, rfl⟩
  · rw [write]
    split <;> exact ⟨rfl, rfl, rfl⟩

theorem write_of_nil {buf : Option (List UInt8)} (h : buf.getD [] = []) :
    s.write buf = (true, s) := by
  rcases buf with _ | buf
  · rfl
  · exact if_pos (congrArg List.length h)

/-! ### Reading

Reading never goes past `size`.
-/

/-- The two streams are views on the same bytes, at the same position. -/
structure SameView (s : ByteStream) (v : VectorStream) : Prop where
  bytes_eq : s.bytes = v.vec
  it_eq : s.it = v.it

/-- **Reading** bytes that were given is reading a vector of them. -/
theorem sameView_read {s : ByteStream} {v : VectorStream} (h : s.SameView v) (buffered : Bool)
    (count : ℕ) : (s.read buffered count).1 = (v.read buffered count).1 ∧
      (s.read buffered count).2.SameView (v.read buffered count).2 := by
  obtain ⟨hbytes, hit⟩ := h
  have hsize : s.size = v.vec.length := by rw [← hbytes, length_bytes]
  have hs : readBytes (s.vec.getD []) s.size s.it buffered count = _ :=
    readBytes_eq s.it_le buffered count
  have hv : readBytes v.vec v.vec.length v.it buffered count = _ :=
    readBytes_eq v.it_le buffered count
  have heq : readBytes (s.vec.getD []) s.size s.it buffered count =
      readBytes v.vec v.vec.length v.it buffered count := by
    rw [hs, hv, ← hsize, ← hit, show (s.vec.getD []).take s.size = s.bytes from rfl, hbytes,
      hsize, List.take_length]
  exact ⟨congrArg Prod.fst heq, hbytes, congrArg Prod.snd heq⟩

theorem sameView_run_read {s : ByteStream} {v : VectorStream} (h : s.SameView v)
    (reads : List (Bool × ℕ)) :
    (run step s (reads.map fun r => .read r.1 r.2)).1 =
        (run VectorStream.step v (reads.map fun r => .read r.1 r.2)).1 ∧
      (run step s (reads.map fun r => .read r.1 r.2)).2.SameView
        (run VectorStream.step v (reads.map fun r => .read r.1 r.2)).2 :=
  PieceQueue.run_sim (R := SameView) (fun _ _ r hview => sameView_read hview r.1 r.2) h reads

/-! ### Writing

What a write leaves in memory, and what a read finds of it.
-/

/-- Writes, then reads, of the two streams that start empty. -/
structure BehavesAsVectorStream (bufs : List (Option (List UInt8))) (reads : List (Bool × ℕ)) :
    Prop where
  writes_eq : (run step empty (bufs.map .write)).1 =
    (run VectorStream.step .empty (bufs.map .write)).1
  size_eq : (run step empty (bufs.map .write)).2.size = (bufs.map (·.getD [])).flatten.length
  bytes_eq : (run step empty (bufs.map .write)).2.bytes = (bufs.map (·.getD [])).flatten
  reads_eq : (run step empty (bufs.map .write ++ reads.map fun r => .read r.1 r.2)).1 =
    (run VectorStream.step .empty (bufs.map .write ++ reads.map fun r => .read r.1 r.2)).1
  it_eq : (run step empty (bufs.map .write ++ reads.map fun r => .read r.1 r.2)).2.it =
    (run VectorStream.step .empty (bufs.map .write ++ reads.map fun r => .read r.1 r.2)).2.it

theorem size_run_write (bufs : List (Option (List UInt8))) :
    (run step s (bufs.map .write)).2.size = s.size := by
  refine PieceQueue.run_keeps (g := size) ?_ s
  rw [List.forall_mem_map]
  intro buf _ s
  exact (s.write_eq buf).2.1

theorem run_write_of_nil {bufs : List (Option (List UInt8))} (h : ∀ buf ∈ bufs, buf.getD [] = []) :
    run step s (bufs.map .write) = (bufs.map fun _ => (true, []), s) := by
  induction bufs with
  | nil => rfl
  | cons buf bufs ih =>
    rw [List.forall_mem_cons] at h
    rw [List.map_cons, PieceQueue.run_cons, step, s.write_of_nil h.1, ih h.2, List.map_cons]

theorem flatten_eq_nil_iff (bufs : List (Option (List UInt8))) :
    (bufs.map (·.getD [])).flatten = [] ↔ ∀ buf ∈ bufs, buf.getD [] = [] := by
  rw [List.flatten_eq_nil_iff, List.forall_mem_map]

theorem behaves_of_nil {bufs : List (Option (List UInt8))} (h : ∀ buf ∈ bufs, buf.getD [] = [])
    (reads : List (Bool × ℕ)) : BehavesAsVectorStream bufs reads := by
  have hnil := (flatten_eq_nil_iff bufs).mpr h
  have hbytes := empty.run_write_of_nil h
  have hanswers := VectorStream.empty.answers_run_write bufs
  obtain ⟨hvec, hit⟩ := VectorStream.empty.vec_run_write bufs
  rw [hnil] at hvec
  have hview : empty.SameView (run VectorStream.step .empty (bufs.map .write)).2 :=
    ⟨hvec.symm, hit.symm⟩
  obtain ⟨hreads, hend⟩ := sameView_run_read hview reads
  exact {
    writes_eq := by rw [hbytes, hanswers]
    size_eq := by rw [hbytes, hnil]; rfl
    bytes_eq := by rw [hbytes, hnil]; rfl
    reads_eq := by rw [PieceQueue.run_append, PieceQueue.run_append, hbytes, hanswers, hreads]
    it_eq := by rw [PieceQueue.run_append, PieceQueue.run_append, hbytes, hend.it_eq] }

/-- **`ByteStream`** behaves as a `VectorStream` as long as nothing is written: the size
that it reads up to is never changed. -/
theorem behavesAsVectorStream_iff (bufs : List (Option (List UInt8)))
    (reads : List (Bool × ℕ)) :
    BehavesAsVectorStream bufs reads ↔ ∀ buf ∈ bufs, buf.getD [] = [] := by
  constructor
  · intro h
    have hsize := h.size_eq
    rw [size_run_write] at hsize
    exact (flatten_eq_nil_iff bufs).mp (List.length_eq_zero_iff.mp hsize.symm)
  · intro h
    exact behaves_of_nil h reads

/-- A byte is written, and cannot be read. -/
theorem not_behavesAsVectorStream :
    (run step empty [.write (some [7]), .read true 1]).1 = [(true, []), (false, [])] ∧
      (run VectorStream.step .empty [.write (some [7]), .read true 1]).1 =
        [(true, []), (true, [7])] ∧
      ¬ BehavesAsVectorStream [some [7]] [(true, 1)] := by
  refine ⟨by decide, by decide, fun h => ?_⟩
  exact absurd h.size_eq (by decide)

end ByteStream

end GameSdk
