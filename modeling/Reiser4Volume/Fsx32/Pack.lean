import Reiser4Volume.Machine

/-! The on-disk form of the system table (fsx32.c, `pack_fsx32` and
`unpack_fsx32`): a bare stream of u32 words, least significant byte first.
`put_unaligned` and `get_unaligned` lay a word out in the host's byte order,
and `cpu_to_le32` / `le32_to_cpu` swap its bytes on a big-endian host. -/

namespace Reiser4Volume.Fsx32

/-- The byte order of the host the code runs on. -/
inductive Endian where
  | little
  | big
  deriving DecidableEq, Repr

/-- Byte `j` of a word, counting from the least significant one. -/
def byteOf (v : UInt32) (j : Nat) : UInt8 := UInt8.ofNat (v.toNat / 256 ^ j)

/-- The four bytes of a word, least significant first. -/
def leBytes (v : UInt32) : List UInt8 := [byteOf v 0, byteOf v 1, byteOf v 2, byteOf v 3]

/-- The word whose bytes, least significant first, are the first four of `bs`. -/
def leWord (bs : List UInt8) : UInt32 :=
  UInt32.ofNat ((bs.getD 0 0).toNat + 256 * (bs.getD 1 0).toNat + 65536 * (bs.getD 2 0).toNat +
    16777216 * (bs.getD 3 0).toNat)

/-- `swab32`: the word with its four bytes in the reverse order. -/
def swab32 (v : UInt32) : UInt32 := leWord (leBytes v).reverse

/-- `cpu_to_le32`. -/
def cpuToLe32 : Endian → UInt32 → UInt32
  | .little, v => v
  | .big, v => swab32 v

/-- `le32_to_cpu`. -/
def le32ToCpu : Endian → UInt32 → UInt32
  | .little, v => v
  | .big, v => swab32 v

/-- The bytes `put_unaligned` stores for a word, in address order. -/
def storeWord : Endian → UInt32 → List UInt8
  | .little, v => leBytes v
  | .big, v => (leBytes v).reverse

/-- The word `get_unaligned` loads from four bytes in address order. -/
def loadWord : Endian → List UInt8 → UInt32
  | .little, bs => leWord bs
  | .big, bs => leWord bs.reverse

@[simp] theorem length_leBytes (v : UInt32) : (leBytes v).length = 4 := rfl

theorem toNat_byteOf (v : UInt32) (j : Nat) : (byteOf v j).toNat = v.toNat / 256 ^ j % 256 := rfl

theorem toNat_leWord (bs : List UInt8) :
    (leWord bs).toNat = ((bs.getD 0 0).toNat + 256 * (bs.getD 1 0).toNat + 65536 * (bs.getD 2 0).toNat +
      16777216 * (bs.getD 3 0).toNat) % 4294967296 := rfl

theorem leWord_leBytes (v : UInt32) : leWord (leBytes v) = v := by
  have small : v.toNat < 4294967296 := v.toNat_lt_size
  apply UInt32.toNat.inj
  simp only [toNat_leWord, leBytes, List.getD_cons_zero, List.getD_cons_succ, toNat_byteOf, Nat.reducePow,
    Nat.pow_zero, Nat.div_one, pow_one]
  omega

theorem leBytes_leWord {bs : List UInt8} (four : bs.length = 4) : leBytes (leWord bs) = bs := by
  match bs, four with
  | [b₀, b₁, b₂, b₃], _ =>
    have small : ∀ b : UInt8, b.toNat < 256 := fun b => b.toNat_lt_size
    have := small b₀; have := small b₁; have := small b₂; have := small b₃
    simp only [leBytes, List.cons.injEq, and_true]
    refine ⟨?_, ?_, ?_, ?_⟩ <;> apply UInt8.toNat.inj <;>
      simp only [toNat_byteOf, toNat_leWord, List.getD_cons_zero, List.getD_cons_succ, Nat.reducePow,
        Nat.pow_zero, Nat.div_one, pow_one] <;>
      omega

@[simp] theorem storeWord_cpuToLe32 (e : Endian) (v : UInt32) : storeWord e (cpuToLe32 e v) = leBytes v := by
  cases e with
  | little => rfl
  | big => simp [storeWord, cpuToLe32, swab32, leBytes_leWord]

theorem le32ToCpu_loadWord (e : Endian) {bs : List UInt8} (four : bs.length = 4) :
    le32ToCpu e (loadWord e bs) = leWord bs := by
  cases e with
  | little => rfl
  | big => simp [le32ToCpu, loadWord, swab32, leBytes_leWord, four]

/-- Store `bytes` in `buf` from offset `pos` on. -/
def putBytes (buf : List UInt8) (pos : Nat) : List UInt8 → Except Fault (List UInt8)
  | [] => .ok buf
  | b :: bs => do
    let buf ← writeAt buf pos b
    putBytes buf (pos + 1) bs

/-- Load `n` bytes of `buf` from offset `pos` on. -/
def getBytes (buf : List UInt8) (pos : Nat) : Nat → Except Fault (List UInt8)
  | 0 => .ok []
  | n + 1 => do
    let b ← readAt buf pos
    let bs ← getBytes buf (pos + 1) n
    pure (b :: bs)

theorem putBytes_append {pre rest : List UInt8} (bytes : List UInt8) (room : bytes.length ≤ rest.length) :
    putBytes (pre ++ rest) pre.length bytes = .ok (pre ++ bytes ++ rest.drop bytes.length) := by
  induction bytes generalizing pre rest with
  | nil => simp [putBytes]
  | cons b bs ih =>
    obtain ⟨r, rest, rfl⟩ : ∃ r rest', rest = r :: rest' :=
      List.exists_cons_of_ne_nil (List.ne_nil_of_length_pos (by simp at room; omega))
    have next := @ih (pre ++ [b]) rest (by simp at room; omega)
    simp only [List.append_assoc, List.singleton_append, List.length_append, List.length_singleton] at next
    simp [putBytes, writeAt_append, next]

theorem getBytes_eq {buf : List UInt8} {pos n : Nat} (inside : pos + n ≤ buf.length) :
    getBytes buf pos n = .ok ((buf.drop pos).take n) := by
  induction n generalizing pos with
  | zero => rfl
  | succ n ih =>
    have first : pos < buf.length := by omega
    rw [List.drop_eq_getElem_cons first, List.take_succ_cons]
    simp only [getBytes, readAt_of_lt first, ih (by omega : pos + 1 + n ≤ buf.length), ok_bind]
    rfl

/-- `pack_fsx32`: the `count` words of `tab` from `src_off` on, written to the
buffer `to` (here `out`) as they lie on disk. -/
def packFsx32 (e : Endian) (tab : List UInt32) (out : List UInt8) (srcOff count : Nat) :
    Except Fault (List UInt8) :=
  forLoop (fun i out => do
      let v ← readAt tab (srcOff + i)
      putBytes out (4 * i) (storeWord e (cpuToLe32 e v)))
    0 count out

/-- `unpack_fsx32`: the `count` words on disk at `from` (here `src`) read into
`tab` from `dst_off` on. -/
def unpackFsx32 (e : Endian) (tab : List UInt32) (src : List UInt8) (dstOff count : Nat) :
    Except Fault (List UInt32) :=
  forLoop (fun i tab => do
      let bytes ← getBytes src (4 * i) 4
      writeAt tab (dstOff + i) (le32ToCpu e (loadWord e bytes)))
    0 count tab

/-- The words the first `4 * n` bytes of a little-endian stream hold. -/
def decodeLE (bytes : List UInt8) : Nat → List UInt32
  | 0 => []
  | n + 1 => leWord (bytes.take 4) :: decodeLE (bytes.drop 4) n

@[simp] theorem length_decodeLE (bytes : List UInt8) (n : Nat) : (decodeLE bytes n).length = n := by
  induction n generalizing bytes with
  | zero => rfl
  | succ n ih => simp [decodeLE, ih]

theorem decodeLE_succ (bytes : List UInt8) (n : Nat) :
    decodeLE bytes (n + 1) = decodeLE bytes n ++ [leWord ((bytes.drop (4 * n)).take 4)] := by
  induction n generalizing bytes with
  | zero => rfl
  | succ n ih =>
    rw [decodeLE, ih, decodeLE, List.drop_drop]
    simp [Nat.mul_succ, Nat.add_comm]

theorem decodeLE_leBytes (words : List UInt32) (rest : List UInt8) :
    decodeLE ((words.map leBytes).flatten ++ rest) words.length = words := by
  induction words with
  | nil => rfl
  | cons w words ih =>
    have take4 : (leBytes w ++ ((words.map leBytes).flatten ++ rest)).take 4 = leBytes w :=
      List.take_left' (length_leBytes w)
    have drop4 : (leBytes w ++ ((words.map leBytes).flatten ++ rest)).drop 4 =
        (words.map leBytes).flatten ++ rest := List.drop_left' (length_leBytes w)
    simp only [List.map_cons, List.flatten_cons, List.append_assoc, List.length_cons, decodeLE, take4,
      drop4, ih, leWord_leBytes]

theorem leBytes_decodeLE {bytes : List UInt8} {n : Nat} (enough : 4 * n ≤ bytes.length) :
    ((decodeLE bytes n).map leBytes).flatten = bytes.take (4 * n) := by
  induction n generalizing bytes with
  | zero => simp [decodeLE]
  | succ n ih =>
    rw [decodeLE, List.map_cons, List.flatten_cons, ih (by simp; omega),
      leBytes_leWord (by simp; omega), ← List.take_add, Nat.mul_succ, Nat.add_comm]

theorem length_flatten_leBytes (words : List UInt32) :
    ((words.map leBytes).flatten).length = 4 * words.length := by
  induction words with
  | nil => rfl
  | cons w words ih => simp [ih, Nat.mul_succ, Nat.add_comm]

theorem getElem?_flatten_leBytes {words : List UInt32} {k j : Nat} (inside : k < words.length) (byte : j < 4) :
    ((words.map leBytes).flatten)[4 * k + j]? = some (byteOf words[k] j) := by
  induction words generalizing k with
  | nil => cases inside
  | cons w words ih =>
    cases k with
    | zero =>
      rw [List.map_cons, List.flatten_cons, List.getElem?_append_left (by simp; omega)]
      match j, byte with
      | 0, _ | 1, _ | 2, _ | 3, _ => rfl
    | succ k =>
      rw [List.map_cons, List.flatten_cons, List.getElem?_append_right (by simp; omega), length_leBytes,
        show 4 * (k + 1) + j - 4 = 4 * k + j by omega]
      exact ih (by simpa using inside)

theorem packFsx32_eq (e : Endian) (pre words post : List UInt32) {out : List UInt8}
    (room : 4 * words.length ≤ out.length) :
    packFsx32 e (pre ++ words ++ post) out pre.length words.length =
      .ok ((words.map leBytes).flatten ++ out.drop (4 * words.length)) := by
  have run := @forLoop_closed _ (fun i out => do
      let v ← readAt (pre ++ words ++ post) (pre.length + i)
      putBytes out (4 * i) (storeWord e (cpuToLe32 e v)))
    (fun i => ((words.take i).map leBytes).flatten ++ out.drop (4 * i)) 0 words.length
    fun i _ inside => by
      have word : (pre ++ words ++ post)[pre.length + i]? = some words[i] := by
        rw [List.append_assoc, List.getElem?_append_right (by omega), Nat.add_sub_cancel_left,
          List.getElem?_append_left (by omega), List.getElem?_eq_getElem]
      have flatLen : (((words.take i).map leBytes).flatten).length = 4 * i := by
        rw [length_flatten_leBytes, List.length_take, Nat.min_eq_left (by omega)]
      simp only [readAt, word, ok_bind, storeWord_cpuToLe32]
      rw [← flatLen, putBytes_append _ (by rw [length_leBytes, List.length_drop, flatLen]; omega), flatLen, List.drop_drop, List.take_succ,
        List.getElem?_eq_getElem (by omega)]
      simp only [List.map_append, List.flatten_append, Option.toList_some, List.map_cons, List.map_nil,
        List.flatten_cons, List.flatten_nil, List.append_nil, List.append_assoc, length_leBytes, Nat.mul_succ,
        Nat.add_comm]
  simpa [packFsx32] using run

theorem unpackFsx32_eq (e : Endian) (pre old post : List UInt32) {src : List UInt8}
    (enough : 4 * old.length ≤ src.length) :
    unpackFsx32 e (pre ++ old ++ post) src pre.length old.length =
      .ok (pre ++ decodeLE src old.length ++ post) := by
  have run := @forLoop_closed _ (fun i tab => do
      let bytes ← getBytes src (4 * i) 4
      writeAt tab (pre.length + i) (le32ToCpu e (loadWord e bytes)))
    (fun i => pre ++ (decodeLE src i ++ old.drop i) ++ post) 0 old.length
    fun i _ inside => by
      have four : ((src.drop (4 * i)).take 4).length = 4 := by simp; omega
      have split : pre ++ (decodeLE src i ++ old.drop i) ++ post =
          (pre ++ decodeLE src i) ++ old[i] :: (old.drop (i + 1) ++ post) := by
        rw [List.drop_eq_getElem_cons (by omega : i < old.length)]
        simp only [List.append_assoc, List.cons_append]
      have index : pre.length + i = (pre ++ decodeLE src i).length := by simp
      simp only [getBytes_eq (by omega : 4 * i + 4 ≤ src.length), ok_bind, le32ToCpu_loadWord e four]
      rw [split, index, writeAt_append, decodeLE_succ]
      simp
  simpa [unpackFsx32] using run

/-- The table's on-disk format round-trips, on hosts of either byte order:
`pack_fsx32` writes each word of a window least significant byte first, word
`k` at bytes `4 * k .. 4 * k + 3`; `unpack_fsx32` of those bytes into any
window of the same size reproduces the words; and `pack_fsx32` of a window
`unpack_fsx32` filled from a stream of `4 * count` bytes reproduces the stream. -/
theorem pack_unpack_round_trip (e₁ e₂ : Endian) (pre words post : List UInt32) (out : List UInt8)
    (room : 4 * words.length ≤ out.length) :
    packFsx32 e₁ (pre ++ words ++ post) out pre.length words.length =
        .ok ((words.map leBytes).flatten ++ out.drop (4 * words.length)) ∧
      (∀ k (inside : k < words.length), ∀ j < 4,
        ((words.map leBytes).flatten ++ out.drop (4 * words.length))[4 * k + j]? = some (byteOf words[k] j)) ∧
      (∀ pre' old post' : List UInt32, old.length = words.length →
        unpackFsx32 e₂ (pre' ++ old ++ post') ((words.map leBytes).flatten ++ out.drop (4 * words.length))
          pre'.length words.length = .ok (pre' ++ words ++ post')) ∧
      (∀ (src : List UInt8) (pre' old post' : List UInt32) (out' : List UInt8),
        src.length = 4 * old.length → src.length ≤ out'.length →
        ∃ tab, unpackFsx32 e₂ (pre' ++ old ++ post') src pre'.length old.length = .ok tab ∧
          packFsx32 e₁ tab out' pre'.length old.length = .ok (src ++ out'.drop src.length)) := by
  refine ⟨packFsx32_eq e₁ pre words post room, fun k inside j byte => ?_, fun pre' old post' same => ?_,
    fun src pre' old post' out' exact room' => ?_⟩
  · rw [List.getElem?_append_left (by rw [length_flatten_leBytes]; omega)]
    exact getElem?_flatten_leBytes inside byte
  · rw [← same, unpackFsx32_eq e₂ pre' old post'
      (by rw [List.length_append, length_flatten_leBytes, List.length_drop]; omega), same, decodeLE_leBytes]
  · refine ⟨_, unpackFsx32_eq e₂ pre' old post' exact.ge, ?_⟩
    have packed := @packFsx32_eq e₁ pre' (decodeLE src old.length) post' out' (by simp; omega)
    rw [length_decodeLE, leBytes_decodeLE exact.ge, ← exact, List.take_length] at packed
    exact packed

theorem pack_unpack_round_trip_one_word :
    4 * [(0x01020304 : UInt32)].length ≤ [(0 : UInt8), 0, 0, 0].length ∧
      packFsx32 .big ([] ++ [0x01020304] ++ []) [0, 0, 0, 0] 0 1 = .ok ([[4, 3, 2, 1]].flatten ++ []) :=
  ⟨by decide, (pack_unpack_round_trip .big .little [] [0x01020304] [] [0, 0, 0, 0] (by decide)).1⟩

end Reiser4Volume.Fsx32
