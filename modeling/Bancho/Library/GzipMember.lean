/-
  Bancho.Library.GzipMember
  ─────────────────────────
  Gzip members around one block with the fixed code:

      member  =  1f 8b 08 00 .. (10 bytes)  block  crc32:u32le  length:u32le

  `decodeMember` takes a member off the front of a byte string and returns the
  data and what is left; `encodeMember` writes one with the literal block.

  Main results:
    * `decodeMember_encode`  — the decoder undoes the encoder, whatever follows;
    * `decodeMember_self`    — a member is delimited by itself;
    * `decodeMember_magic`, `decodeMember_expand` — what is accepted begins with
      the magic bytes and writes at most 1032 bytes for each byte.
-/
import Bancho.Library.FixedCode

namespace Gzip

open LittleEndian

/-! ## §1. Members. -/

/-- One bit of CRC-32 (reflected polynomial). -/
def crcRound (c : UInt32) : UInt32 :=
  if c &&& 1 = 1 then (c >>> 1) ^^^ 0xEDB88320 else c >>> 1

def crcByte (c : UInt32) (b : UInt8) : UInt32 := Nat.iterate crcRound 8 (c ^^^ b.toUInt32)

def crc32 (data : List UInt8) : UInt32 := data.foldl crcByte 0xFFFFFFFF ^^^ 0xFFFFFFFF

/-- Magic bytes, method 8, no flags. -/
def magic : List UInt8 := [0x1f, 0x8b, 8, 0]

/-- The header written: no time stamp, no extra flags, system 3. -/
def header : List UInt8 := magic ++ [0, 0, 0, 0, 0, 3]

def trailer (data : List UInt8) : List UInt8 :=
  bytesOf 4 (crc32 data).toNat ++ bytesOf 4 (data.length % 2 ^ 32)

/-- The member of a block that stands for `data`. -/
def wrapMember (block : List Bool) (data : List UInt8) : List UInt8 :=
  header ++ packBits (block ++ padding block) ++ trailer data

def encodeMember (data : List UInt8) : List UInt8 := wrapMember (literalBits data) data

/-- Take a member off the front: its data, and the bytes after it. -/
def decodeMember (bytes : List UInt8) : Option (List UInt8 × List UInt8) :=
  if bytes.take 4 = magic ∧ 10 ≤ bytes.length then
    match inflateBlock (toBits (bytes.drop 10)) with
    | none => none
    | some (window, r) =>
        let data := window.reverse
        let tail := bytes.drop (bytes.length - r.length / 8)
        if tail.take 8 = trailer data then some (data, tail.drop 8) else none
  else none

@[simp] theorem length_trailer (data : List UInt8) : (trailer data).length = 8 := by
  simp [trailer]

/-- A header, the bytes of a block, and the trailer of its data are a member. -/
theorem decodeMember_of_parts {head block data t : List UInt8} {used pad : List Bool}
    (hhead : head.take 4 = magic) (hten : head.length = 10)
    (hbits : toBits block = used ++ pad) (hpad : pad.length < 8)
    (hblock : ∀ r, inflateBlock (used ++ r) = some (data.reverse, r)) :
    decodeMember (head ++ block ++ trailer data ++ t) = some (data, t) := by
  -- the decoder looks at the first four bytes, then at the bits from byte 10 on
  have htake : (head ++ block ++ trailer data ++ t).take 4 = magic := by
    rw [List.append_assoc, List.append_assoc, List.take_append_of_le_length (by omega), hhead]
  have hbody : toBits ((head ++ block ++ trailer data ++ t).drop 10)
      = used ++ (pad ++ toBits (trailer data ++ t)) := by
    rw [List.append_assoc, List.append_assoc, ← hten, List.drop_left, toBits_append, hbits,
      List.append_assoc]
  have hleft : (pad ++ toBits (trailer data ++ t)).length / 8 = 8 + t.length := by
    rw [List.length_append, length_toBits, List.length_append, length_trailer]
    omega
  -- the bits the block leaves are its padding and the bytes of trailer and tail
  have htail : (head ++ block ++ trailer data ++ t).drop
      ((head ++ block ++ trailer data ++ t).length - (8 + t.length)) = trailer data ++ t := by
    have hlen : (head ++ block ++ trailer data ++ t).length - (8 + t.length)
        = (head ++ block).length := by
      simp only [List.length_append, length_trailer]
      omega
    rw [hlen, List.append_assoc, List.drop_left]
  have hlong : 10 ≤ (head ++ block ++ trailer data ++ t).length := by
    simp only [List.length_append, length_trailer]
    omega
  unfold decodeMember
  rw [if_pos ⟨htake, hlong⟩, hbody, hblock]
  simp only [List.reverse_reverse, hleft, htail]
  rw [if_pos (List.take_left' (length_trailer data)), List.drop_left' (length_trailer data)]

/-- **The decoder undoes the wrapping** of a block, whatever follows. -/
theorem decodeMember_wrap {block : List Bool} {data : List UInt8}
    (h : ∀ r, inflateBlock (block ++ r) = some (data.reverse, r)) (t : List UInt8) :
    decodeMember (wrapMember block data ++ t) = some (data, t) :=
  decodeMember_of_parts rfl rfl (toBits_packBits _ (length_padding block)) (padding_lt block) h

/-- **The decoder undoes the encoder**, whatever follows. -/
theorem decodeMember_encode (data : List UInt8) (h : data.length < symbolLimit)
    (t : List UInt8) : decodeMember (encodeMember data ++ t) = some (data, t) :=
  decodeMember_wrap (inflateBlock_literals data h) t

/-- A member is its header, its trailer, and the bytes of its block. -/
theorem length_wrapMember_le (block : List Bool) (data : List UInt8) :
    8 * (wrapMember block data).length ≤ 144 + (block.length + 7) := by
  have hbits := congrArg List.length (toBits_packBits _ (length_padding block))
  have hpad := padding_lt block
  rw [length_toBits, List.length_append] at hbits
  unfold wrapMember
  rw [List.length_append, List.length_append, length_trailer, show header.length = 10 from rfl]
  omega

/-! ## §2. What is accepted. -/

/-- The parts of an accepted member. -/
theorem decodeMember_parts {bytes data rest : List UInt8}
    (h : decodeMember bytes = some (data, rest)) :
    bytes.take 4 = magic ∧ 10 ≤ bytes.length ∧ ∃ r,
      inflateBlock (toBits (bytes.drop 10)) = some (data.reverse, r)
        ∧ bytes.drop (bytes.length - r.length / 8) = trailer data ++ rest := by
  unfold decodeMember at h
  split at h
  next hhead =>
    refine ⟨hhead.1, hhead.2, ?_⟩
    cases hb : inflateBlock (toBits (bytes.drop 10)) with
    | none => rw [hb] at h; exact nomatch h
    | some x =>
        obtain ⟨window, r⟩ := x
        rw [hb] at h
        simp only at h
        split at h
        next htail =>
          obtain ⟨rfl, rfl⟩ := Prod.mk.inj (Option.some.inj h)
          refine ⟨r, by rw [List.reverse_reverse], ?_⟩
          rw [← htail, List.take_append_drop]
        next => exact nomatch h
  next => exact nomatch h

theorem decodeMember_magic {bytes data rest : List UInt8}
    (h : decodeMember bytes = some (data, rest)) :
    ∃ tail, bytes = 0x1f :: 0x8b :: tail := by
  obtain ⟨hmagic, -, -⟩ := decodeMember_parts h
  refine ⟨8 :: 0 :: bytes.drop 4, ?_⟩
  rw [← List.take_append_drop 4 bytes, hmagic]
  rfl

/-- **Expansion**: at most 1032 bytes of data for each byte. -/
theorem decodeMember_expand {bytes data rest : List UInt8}
    (h : decodeMember bytes = some (data, rest)) : data.length ≤ 1032 * bytes.length := by
  obtain ⟨-, -, r, hb, -⟩ := decodeMember_parts h
  have hgrow := inflateBlock_growth hb
  rw [List.length_reverse, length_toBits, List.length_drop] at hgrow
  omega

/-- **A member is delimited by itself**: what follows it is what is left, and
could be anything. -/
theorem decodeMember_self {bytes data rest : List UInt8}
    (h : decodeMember bytes = some (data, rest)) :
    ∃ member, bytes = member ++ rest ∧ ∀ t, decodeMember (member ++ t) = some (data, t) := by
  obtain ⟨hmagic, hten, r, hb, htail⟩ := decodeMember_parts h
  obtain ⟨used, hbits, -, hall⟩ := inflateBlock_reads _ _ _ hb
  have hcount := congrArg List.length hbits
  rw [length_toBits, List.length_drop, List.length_append] at hcount
  -- the block ends with the byte that holds its last bit: `k` bytes
  obtain ⟨k, hk⟩ : ∃ k, bytes.length - r.length / 8 = 10 + k :=
    Nat.exists_eq_add_of_le (by omega)
  have hsplit : bytes = bytes.take 10 ++ (bytes.drop 10).take k ++ trailer data ++ rest := by
    rw [hk, ← List.drop_drop] at htail
    rw [List.append_assoc, ← htail, List.append_assoc, List.take_append_drop,
      List.take_append_drop]
  have hlen : ((bytes.drop 10).take k).length = k := by
    rw [List.length_take, List.length_drop]
    omega
  -- the bits used and the bits of those bytes both begin the body, and they differ by less
  -- than a byte: that is the padding
  have hused : used <+: toBits (bytes.drop 10) := ⟨r, hbits.symm⟩
  have hblock : toBits ((bytes.drop 10).take k) <+: toBits (bytes.drop 10) := by
    refine ⟨toBits ((bytes.drop 10).drop k), ?_⟩
    rw [← toBits_append, List.take_append_drop]
  obtain ⟨pad, hpad⟩ := List.prefix_of_prefix_length_le hused hblock (by
    rw [length_toBits, hlen]
    omega)
  have hpadlen := congrArg List.length hpad
  rw [length_toBits, hlen, List.length_append] at hpadlen
  refine ⟨bytes.take 10 ++ (bytes.drop 10).take k ++ trailer data, hsplit, ?_⟩
  intro t
  apply decodeMember_of_parts ?_ ?_ hpad.symm (by omega) hall
  · rw [List.take_take]
    exact hmagic
  · rw [List.length_take]
    omega

end Gzip
