/-
  Bancho.Library.FixedCode
  ────────────────────────
  DEFLATE blocks with the fixed Huffman code: bytes as bits, the literal/length
  and distance codes, the decoder of a block, and the encoder that writes every
  byte as a literal.

      block   =  1  10  symbol*  end        (final block, fixed code)
      symbol  =  literal | length extra distance extra

  Main results:
    * `inflateBlock_literals` — the decoder undoes the literal encoder;
    * `inflateBlock_run`      — a run of equal bytes, by copies;
    * `inflateBlock_reads`    — the decoder reads the bits of its block and no
      other (`Reads`), so what follows a block plays no part;
    * `inflateBlock_growth`   — a block writes at most 129 bytes for each bit.
-/
import Bancho.Library.LittleEndian
import Mathlib.Tactic.Ring

namespace Gzip

/-! ## §1. Bytes as bits. -/

/-- The `k` low bits of `n`, least significant first. -/
def bitsLsb : Nat → Nat → List Bool
  | 0, _ => []
  | k + 1, n => (n % 2 == 1) :: bitsLsb k (n / 2)

/-- The `k` low bits of `n`, most significant first (Huffman codes). -/
def bitsMsb : Nat → Nat → List Bool
  | 0, _ => []
  | k + 1, n => bitsMsb k (n / 2) ++ [n % 2 == 1]

/-- The bits of a byte string, in the order DEFLATE packs them. -/
def toBits : List UInt8 → List Bool
  | [] => []
  | b :: bs => bitsLsb 8 b.toNat ++ toBits bs

/-- The value of bits, least significant first. -/
def ofBits : List Bool → Nat
  | [] => 0
  | b :: bits => b.toNat + 2 * ofBits bits

/-- The bytes of a bit string; fewer than eight bits at the end are dropped. -/
def packBits : List Bool → List UInt8
  | b0 :: b1 :: b2 :: b3 :: b4 :: b5 :: b6 :: b7 :: bits =>
      UInt8.ofNat (ofBits [b0, b1, b2, b3, b4, b5, b6, b7]) :: packBits bits
  | _ => []

/-- The zero bits that fill up the last byte. -/
def padding (bits : List Bool) : List Bool := List.replicate ((8 - bits.length % 8) % 8) false

@[simp] theorem length_bitsLsb (k n : Nat) : (bitsLsb k n).length = k := by
  induction k generalizing n with
  | zero => rfl
  | succ k ih => simp [bitsLsb, ih]

@[simp] theorem length_bitsMsb (k n : Nat) : (bitsMsb k n).length = k := by
  induction k generalizing n with
  | zero => rfl
  | succ k ih => simp [bitsMsb, ih]

@[simp] theorem length_toBits (bs : List UInt8) : (toBits bs).length = 8 * bs.length := by
  induction bs with
  | nil => rfl
  | cons b bs ih =>
      simp only [toBits, List.length_append, length_bitsLsb, List.length_cons, ih]
      omega

theorem toBits_append (as bs : List UInt8) : toBits (as ++ bs) = toBits as ++ toBits bs := by
  induction as with
  | nil => rfl
  | cons a as ih => simp only [List.cons_append, toBits, ih, List.append_assoc]

/-- Eight bits survive being packed into a byte. -/
theorem bitsLsb_pack (b0 b1 b2 b3 b4 b5 b6 b7 : Bool) :
    bitsLsb 8 (UInt8.ofNat (ofBits [b0, b1, b2, b3, b4, b5, b6, b7])).toNat
      = [b0, b1, b2, b3, b4, b5, b6, b7] := by
  revert b0 b1 b2 b3 b4 b5 b6 b7
  decide

/-- Whole bytes survive being packed. -/
theorem toBits_packBits (bits : List Bool) (h : bits.length % 8 = 0) :
    toBits (packBits bits) = bits := by
  induction bits using packBits.induct with
  | case1 b0 b1 b2 b3 b4 b5 b6 b7 bits ih =>
      simp only [List.length_cons] at h
      rw [packBits, toBits, bitsLsb_pack, ih (by omega)]
      rfl
  | case2 bits hshort =>
      -- fewer than eight bits are a multiple of eight only if there are none
      match bits, hshort, h with
      | [], _, _ => rfl
      | [_], _, h | [_, _], _, h | [_, _, _], _, h | [_, _, _, _], _, h
      | [_, _, _, _, _], _, h | [_, _, _, _, _, _], _, h | [_, _, _, _, _, _, _], _, h =>
          simp at h
      | b0 :: b1 :: b2 :: b3 :: b4 :: b5 :: b6 :: b7 :: bits, hshort, _ =>
          exact absurd rfl (hshort b0 b1 b2 b3 b4 b5 b6 b7 bits)

theorem length_padding (bits : List Bool) : (bits ++ padding bits).length % 8 = 0 := by
  rw [List.length_append, padding, List.length_replicate]
  omega

theorem padding_lt (bits : List Bool) : (padding bits).length < 8 := by
  rw [padding, List.length_replicate]
  omega

/-! ## §2. Reading bits. -/

/-- Read `k` bits, least significant first. -/
def readLsb : Nat → List Bool → Option (Nat × List Bool)
  | 0, bits => some (0, bits)
  | k + 1, b :: bits => (readLsb k bits).map fun (n, r) => (b.toNat + 2 * n, r)
  | _ + 1, [] => none

/-- Read `k` more bits of a code that begins with `acc`, most significant first. -/
def readMsb : Nat → Nat → List Bool → Option (Nat × List Bool)
  | 0, acc, bits => some (acc, bits)
  | k + 1, acc, b :: bits => readMsb k (2 * acc + b.toNat) bits
  | _ + 1, _, [] => none

/-- `Reads c p`: the reader `p` takes at least `c` bits off the front, and
its answer depends on no bit after those it takes. -/
def Reads {β : Type} (c : Nat) (p : List Bool → Option (β × List Bool)) : Prop :=
  ∀ bits a r, p bits = some (a, r) →
    ∃ used, bits = used ++ r ∧ c ≤ used.length ∧ ∀ r', p (used ++ r') = some (a, r')

theorem Reads.weaken {β : Type} {c : Nat} {p : List Bool → Option (β × List Bool)}
    (h : Reads c p) : Reads 0 p := by
  intro bits a r hp
  obtain ⟨used, hbits, -, hall⟩ := h bits a r hp
  exact ⟨used, hbits, Nat.zero_le _, hall⟩

/-- A reader that takes nothing. -/
theorem Reads.pure {β : Type} (a : β) : Reads 0 (fun bits => some (a, bits)) := by
  intro bits b r h
  obtain ⟨rfl, rfl⟩ := Prod.mk.inj (Option.some.inj h)
  exact ⟨[], rfl, Nat.le_refl _, fun r' => rfl⟩

/-- A reader that fails. -/
theorem Reads.fail {β : Type} (c : Nat) :
    Reads c (fun _ => (none : Option (β × List Bool))) := by
  intro bits a r h
  exact nomatch h

/-- One reader after another. -/
theorem Reads.bind {β γ : Type} {c : Nat} {p : List Bool → Option (β × List Bool)}
    {q : β × List Bool → Option (γ × List Bool)} (hp : Reads c p)
    (hq : ∀ a, Reads 0 (fun r => q (a, r))) : Reads c (fun bits => (p bits).bind q) := by
  intro bits b r h
  obtain ⟨⟨a, m⟩, ha, hb⟩ := Option.bind_eq_some_iff.mp h
  obtain ⟨u, hu, hc, hall⟩ := hp bits a m ha
  obtain ⟨v, hv, -, hall'⟩ := hq a m b r hb
  refine ⟨u ++ v, by rw [hu, hv, List.append_assoc], ?_, ?_⟩
  · rw [List.length_append]
    omega
  · intro r'
    simp only [List.append_assoc, hall, Option.bind_some, hall']

/-- A choice that does not look at the bits. -/
theorem Reads.choice {β : Type} {c : Nat} {p q : List Bool → Option (β × List Bool)} {b : Prop}
    {inst : List Bool → Decidable b} (hp : Reads c p) (hq : Reads c q) :
    Reads c (fun bits => @ite _ b (inst bits) (p bits) (q bits)) := by
  by_cases h : b
  · simpa only [if_pos h] using hp
  · simpa only [if_neg h] using hq

theorem readMsb_reads (k acc : Nat) : Reads k (readMsb k acc) := by
  induction k generalizing acc with
  | zero => exact Reads.pure acc
  | succ k ih =>
      intro bits a r h
      cases bits with
      | nil => exact nomatch h
      | cons b bits =>
          obtain ⟨used, hbits, hk, hall⟩ := ih _ bits a r h
          refine ⟨b :: used, by rw [hbits]; rfl, ?_, fun r' => hall r'⟩
          rw [List.length_cons]
          omega

theorem readLsb_reads (k : Nat) : Reads k (readLsb k) := by
  induction k with
  | zero => exact Reads.pure 0
  | succ k ih =>
      intro bits a r h
      cases bits with
      | nil => exact nomatch h
      | cons b bits =>
          obtain ⟨⟨n, m⟩, hn, hab⟩ := Option.map_eq_some_iff.mp h
          obtain ⟨rfl, rfl⟩ := Prod.mk.inj hab
          obtain ⟨used, hbits, hk, hall⟩ := ih bits n m hn
          refine ⟨b :: used, by rw [hbits]; rfl, ?_, ?_⟩
          · rw [List.length_cons]
            omega
          · intro r'
            show (readLsb k (used ++ r')).map _ = _
            rw [hall r']
            rfl

theorem readMsb_append (j k acc : Nat) (bits : List Bool) :
    readMsb (j + k) acc bits = (readMsb j acc bits).bind fun x => readMsb k x.1 x.2 := by
  induction j generalizing acc bits with
  | zero =>
      rw [Nat.zero_add]
      rfl
  | succ j ih =>
      rw [Nat.add_right_comm]
      cases bits with
      | nil => rfl
      | cons b bits => exact ih _ bits

/-- The lowest bit as a number. -/
theorem toNat_mod_two (n : Nat) : (n % 2 == 1).toNat = n % 2 := by
  rcases Nat.mod_two_eq_zero_or_one n with h | h <;> rw [h] <;> rfl

/-- A code that was written is read back. -/
theorem readMsb_bitsMsb (k acc n : Nat) (r : List Bool) :
    readMsb k acc (bitsMsb k n ++ r) = some (acc * 2 ^ k + n % 2 ^ k, r) := by
  induction k generalizing n r with
  | zero => simp [readMsb, bitsMsb, Nat.mod_one]
  | succ k ih =>
      rw [bitsMsb, List.append_assoc, readMsb_append, ih]
      simp only [Option.bind_some, List.singleton_append, readMsb, toNat_mod_two,
        Option.some.injEq, Prod.mk.injEq, and_true]
      rw [Nat.pow_succ, Nat.mul_comm (2 ^ k) 2, Nat.mod_mul]
      ring

/-! ## §3. The fixed code. -/

/-- Code of a literal/length symbol: four ranges of 8, 9, 7 and 8 bits. -/
def litCode (v : Nat) : List Bool :=
  if v < 144 then bitsMsb 8 (48 + v)
  else if v < 256 then bitsMsb 9 (400 + (v - 144))
  else if v < 280 then bitsMsb 7 (v - 256)
  else bitsMsb 8 (192 + (v - 280))

/-- Decode a literal/length symbol: seven bits, then one more at a time. -/
def decodeLit (bits : List Bool) : Option (Nat × List Bool) :=
  (readMsb 7 0 bits).bind fun x =>
    if x.1 < 24 then some (256 + x.1, x.2)
    else (readMsb 1 x.1 x.2).bind fun y =>
      if y.1 < 192 then some (y.1 - 48, y.2)
      else if y.1 < 200 then some (280 + (y.1 - 192), y.2)
      else (readMsb 1 y.1 y.2).bind fun w => some (144 + (w.1 - 400), w.2)

/-- Base and number of extra bits of the length symbols 257, 258, .. -/
def lengthTable : List (Nat × Nat) :=
  [(3, 0), (4, 0), (5, 0), (6, 0), (7, 0), (8, 0), (9, 0), (10, 0),
   (11, 1), (13, 1), (15, 1), (17, 1), (19, 2), (23, 2), (27, 2), (31, 2),
   (35, 3), (43, 3), (51, 3), (59, 3), (67, 4), (83, 4), (99, 4), (115, 4),
   (131, 5), (163, 5), (195, 5), (227, 5), (258, 0)]

/-- Base and number of extra bits of the distance symbols 0, 1, .. -/
def distanceTable : List (Nat × Nat) :=
  [(1, 0), (2, 0), (3, 0), (4, 0), (5, 1), (7, 1), (9, 2), (13, 2),
   (17, 3), (25, 3), (33, 4), (49, 4), (65, 5), (97, 5), (129, 6), (193, 6),
   (257, 7), (385, 7), (513, 8), (769, 8), (1025, 9), (1537, 9), (2049, 10), (3073, 10),
   (4097, 11), (6145, 11), (8193, 12), (12289, 12), (16385, 13), (24577, 13)]

/-- The value of entry `i` of a table with its extra bits. -/
def readExtra (table : List (Nat × Nat)) (i : Nat) (bits : List Bool) :
    Option (Nat × List Bool) :=
  match table[i]? with
  | none => none
  | some (base, extra) => (readLsb extra bits).bind fun e => some (base + e.1, e.2)

/-- A distance: five bits of symbol, then its extra bits. -/
def readDistance (bits : List Bool) : Option (Nat × List Bool) :=
  (readMsb 5 0 bits).bind fun d => readExtra distanceTable d.1 d.2

/-- Copy `len` bytes from `dist` back; the window has the latest byte first. -/
def copyMatch : Nat → Nat → List UInt8 → Option (List UInt8)
  | 0, _, window => some window
  | len + 1, dist, window =>
      match window[dist - 1]? with
      | none => none
      | some b => copyMatch len dist (b :: window)

/-- The symbols of a block, up to the end symbol 256. -/
def inflateSymbols : Nat → List UInt8 → List Bool → Option (List UInt8 × List Bool)
  | 0, _, _ => none
  | fuel + 1, window, bits =>
      (decodeLit bits).bind fun s =>
        if s.1 < 256 then inflateSymbols fuel (UInt8.ofNat s.1 :: window) s.2
        else if s.1 = 256 then some (window, s.2)
        else (readExtra lengthTable (s.1 - 257) s.2).bind fun len =>
          (readDistance len.2).bind fun dist =>
            (copyMatch len.1 dist.1 window).bind fun window => inflateSymbols fuel window dist.2

/-- More symbols than the 2 ^ 32 bytes that a 32-bit count can announce hold. -/
def symbolLimit : Nat := 2 ^ 33

/-- A stream of one block: final, with the fixed code.  The output is the
window, latest byte first. -/
def inflateBlock : List Bool → Option (List UInt8 × List Bool)
  | true :: true :: false :: bits => inflateSymbols symbolLimit [] bits
  | _ => none

/-- The block that writes every byte as a literal. -/
def literalBits (data : List UInt8) : List Bool :=
  [true, true, false] ++ data.flatMap (fun b => litCode b.toNat) ++ litCode 256

/-! ## §4. The decoder undoes the encoder. -/

theorem readMsb_one (acc : Nat) (b : Bool) (r : List Bool) :
    readMsb 1 acc ([b] ++ r) = some (2 * acc + b.toNat, r) := rfl

theorem decodeLit_seven (m : Nat) (hm : m < 24) (r : List Bool) :
    decodeLit (bitsMsb 7 m ++ r) = some (256 + m, r) := by
  have hx : 0 * 2 ^ 7 + m % 2 ^ 7 = m := by omega
  unfold decodeLit
  rw [readMsb_bitsMsb, Option.bind_some]
  simp only [hx, if_pos hm]

theorem decodeLit_eight (m : Nat) (hlow : 48 ≤ m) (hm : m < 192) (r : List Bool) :
    decodeLit (bitsMsb 8 m ++ r) = some (m - 48, r) := by
  have hx : 0 * 2 ^ 7 + m / 2 % 2 ^ 7 = m / 2 := by omega
  have hy : 2 * (m / 2) + m % 2 = m := by omega
  unfold decodeLit
  rw [bitsMsb, List.append_assoc, readMsb_bitsMsb, Option.bind_some]
  simp only [hx, if_neg (show ¬ m / 2 < 24 by omega), readMsb_one, Option.bind_some,
    toNat_mod_two, hy, if_pos hm]

theorem decodeLit_nine (m : Nat) (hlow : 400 ≤ m) (hm : m < 512) (r : List Bool) :
    decodeLit (bitsMsb 9 m ++ r) = some (144 + (m - 400), r) := by
  have hx : 0 * 2 ^ 7 + m / 2 / 2 % 2 ^ 7 = m / 2 / 2 := by omega
  have hy : 2 * (m / 2 / 2) + m / 2 % 2 = m / 2 := by omega
  have hw : 2 * (m / 2) + m % 2 = m := by omega
  unfold decodeLit
  rw [bitsMsb, bitsMsb, List.append_assoc, List.append_assoc, readMsb_bitsMsb, Option.bind_some]
  simp only [hx, if_neg (show ¬ m / 2 / 2 < 24 by omega), readMsb_one, Option.bind_some,
    toNat_mod_two, hy, if_neg (show ¬ m / 2 < 192 by omega),
    if_neg (show ¬ m / 2 < 200 by omega), hw]

theorem decodeLit_high (m : Nat) (hlow : 192 ≤ m) (hm : m < 200) (r : List Bool) :
    decodeLit (bitsMsb 8 m ++ r) = some (280 + (m - 192), r) := by
  have hx : 0 * 2 ^ 7 + m / 2 % 2 ^ 7 = m / 2 := by omega
  have hy : 2 * (m / 2) + m % 2 = m := by omega
  unfold decodeLit
  rw [bitsMsb, List.append_assoc, readMsb_bitsMsb, Option.bind_some]
  simp only [hx, if_neg (show ¬ m / 2 < 24 by omega), readMsb_one, Option.bind_some,
    toNat_mod_two, hy, if_neg (show ¬ m < 192 by omega), if_pos hm]

/-- A symbol is decoded as it was coded. -/
theorem decodeLit_litCode (v : Nat) (hv : v < 288) (r : List Bool) :
    decodeLit (litCode v ++ r) = some (v, r) := by
  unfold litCode
  -- the four ranges of the code, each decoded by the prefix it has
  by_cases h8 : v < 144
  · rw [if_pos h8, decodeLit_eight _ (by omega) (by omega), Nat.add_sub_cancel_left]
  · rw [if_neg h8]
    by_cases h9 : v < 256
    · rw [if_pos h9, decodeLit_nine _ (by omega) (by omega),
        show 144 + (400 + (v - 144) - 400) = v by omega]
    · rw [if_neg h9]
      by_cases h7 : v < 280
      · rw [if_pos h7, decodeLit_seven _ (by omega), show 256 + (v - 256) = v by omega]
      · rw [if_neg h7, decodeLit_high _ (by omega) (by omega),
          show 280 + (192 + (v - 280) - 192) = v by omega]

theorem length_litCode_le (v : Nat) : (litCode v).length ≤ 9 := by
  unfold litCode
  split
  next => simp
  next =>
    split
    next => simp
    next => split <;> simp

/-- Literals are decoded onto the window, and the end symbol stops. -/
theorem inflateSymbols_literals (data : List UInt8) :
    ∀ (fuel : Nat) (window : List UInt8) (r : List Bool), data.length < fuel →
      inflateSymbols fuel window (data.flatMap (fun b => litCode b.toNat) ++ litCode 256 ++ r)
        = some (data.reverse ++ window, r) := by
  induction data with
  | nil =>
      intro fuel window r hfuel
      -- only the end symbol is left, and it takes one more step
      obtain ⟨fuel, rfl⟩ := Nat.exists_eq_succ_of_ne_zero (Nat.ne_of_gt hfuel)
      rw [List.flatMap_nil, List.nil_append, inflateSymbols, decodeLit_litCode 256 (by decide)]
      rfl
  | cons b data ih =>
      intro fuel window r hfuel
      rw [List.length_cons] at hfuel
      obtain ⟨fuel, rfl⟩ := Nat.exists_eq_succ_of_ne_zero (Nat.ne_zero_of_lt hfuel)
      have hb := b.toNat_lt
      rw [List.flatMap_cons, List.append_assoc, List.append_assoc, inflateSymbols,
        decodeLit_litCode _ (by omega), Option.bind_some]
      simp only [if_pos (show b.toNat < 256 from hb), UInt8.ofNat_toNat]
      rw [← List.append_assoc, ih fuel (b :: window) r (by omega), List.reverse_cons,
        List.append_assoc]
      rfl

/-- **Round trip**: the literal block of at most a 32-bit count of bytes, with
anything after it, decodes to the bytes and leaves what came after. -/
theorem inflateBlock_literals (data : List UInt8) (h : data.length < symbolLimit)
    (r : List Bool) : inflateBlock (literalBits data ++ r) = some (data.reverse, r) := by
  have hs := inflateSymbols_literals data symbolLimit [] r h
  rw [List.append_nil] at hs
  rw [literalBits, List.append_assoc, List.append_assoc, ← List.append_assoc _ _ r]
  exact hs

/-- The block of one literal and `k` copies of 258 bytes from one byte back: a
run of `258 * k + 1` equal bytes. -/
def runBits (b : UInt8) (k : Nat) : List Bool :=
  [true, true, false] ++ litCode b.toNat
    ++ ((List.replicate k (litCode 285 ++ bitsMsb 5 0)).flatten ++ litCode 256)

/-- A run costs 13 bits for each copy. -/
theorem length_runBits_le (b : UInt8) (k : Nat) : (runBits b k).length ≤ 19 + 13 * k := by
  have hlit : (litCode b.toNat).length ≤ 9 := length_litCode_le _
  have hend : (litCode 256).length = 7 := rfl
  have hcopy : (litCode 285 ++ bitsMsb 5 0).length = 13 := rfl
  have hcopies : ((List.replicate k (litCode 285 ++ bitsMsb 5 0)).flatten).length = k * 13 := by
    rw [List.length_flatten, List.map_replicate, List.sum_replicate_nat, hcopy]
  rw [runBits, List.length_append, List.length_append, List.length_append, hend, hcopies]
  simp only [List.length_cons, List.length_nil]
  omega

/-- A copy from one byte back repeats that byte. -/
theorem copyMatch_one (len : Nat) (b : UInt8) (n : Nat) :
    copyMatch len 1 (List.replicate (n + 1) b) = some (List.replicate (n + 1 + len) b) := by
  induction len generalizing n with
  | zero => rfl
  | succ len ih =>
      show copyMatch len 1 (List.replicate (n + 1 + 1) b) = _
      rw [ih (n + 1), Nat.add_right_comm (n + 1) 1 len]
      rfl

/-- One copy, read off the front. -/
theorem inflateSymbols_copy (fuel n : Nat) (b : UInt8) (r : List Bool) :
    inflateSymbols (fuel + 1) (List.replicate (n + 1) b) (litCode 285 ++ bitsMsb 5 0 ++ r)
      = inflateSymbols fuel (List.replicate (n + 258 + 1) b) r := by
  -- symbol 285 is length 258 without extra bits, distance symbol 0 is one byte back
  have hlen : ∀ bits, readExtra lengthTable (285 - 257) bits = some (258, bits) := fun _ => rfl
  have hdist : readDistance (bitsMsb 5 0 ++ r) = some (1, r) := by
    unfold readDistance
    rw [readMsb_bitsMsb]
    rfl
  rw [List.append_assoc, inflateSymbols, decodeLit_litCode 285 (by decide), Option.bind_some]
  simp only [if_neg (show ¬ 285 < 256 by decide), if_neg (show ¬ 285 = 256 by decide), hlen,
    Option.bind_some, hdist, copyMatch_one, Nat.add_right_comm n 1 258]

theorem inflateSymbols_copies (k fuel n : Nat) (b : UInt8) (r : List Bool) :
    inflateSymbols (fuel + k) (List.replicate (n + 1) b)
        ((List.replicate k (litCode 285 ++ bitsMsb 5 0)).flatten ++ r)
      = inflateSymbols fuel (List.replicate (n + 258 * k + 1) b) r := by
  induction k generalizing n with
  | zero => rfl
  | succ k ih =>
      have hsplit : (List.replicate (k + 1) (litCode 285 ++ bitsMsb 5 0)).flatten
          = (litCode 285 ++ bitsMsb 5 0)
            ++ (List.replicate k (litCode 285 ++ bitsMsb 5 0)).flatten := by
        rw [List.replicate_succ, List.flatten_cons]
      rw [hsplit, List.append_assoc, ← Nat.add_assoc, inflateSymbols_copy, ih, Nat.mul_succ,
        Nat.add_assoc n 258, Nat.add_comm 258]

/-- **A run** decodes to its bytes and leaves what came after. -/
theorem inflateBlock_run (b : UInt8) (k : Nat) (hk : k + 2 ≤ symbolLimit) (r : List Bool) :
    inflateBlock (runBits b k ++ r) = some ((List.replicate (258 * k + 1) b).reverse, r) := by
  -- one symbol for the literal, `k` for the copies, one for the end
  obtain ⟨fuel, hfuel⟩ : ∃ fuel, symbolLimit = fuel + 1 + k + 1 :=
    ⟨symbolLimit - (k + 2), by omega⟩
  have hb := b.toNat_lt
  rw [runBits, List.append_assoc, List.append_assoc]
  show inflateSymbols symbolLimit [] (litCode b.toNat ++ _) = _
  rw [hfuel, inflateSymbols, decodeLit_litCode _ (by omega), Option.bind_some]
  simp only [if_pos (show b.toNat < 256 from hb), UInt8.ofNat_toNat, List.append_assoc]
  have hcopies := inflateSymbols_copies k (fuel + 1) 0 b (litCode 256 ++ r)
  rw [Nat.zero_add, Nat.zero_add] at hcopies
  show inflateSymbols (fuel + 1 + k) (List.replicate 1 b) _ = _
  rw [hcopies, inflateSymbols, decodeLit_litCode 256 (by decide), List.reverse_replicate]
  rfl

/-! ## §5. A block is read by itself, and is not too small for what it writes. -/

theorem decodeLit_reads : Reads 7 decodeLit := by
  -- seven bits are always taken; the eighth and the ninth only for the longer codes
  refine (readMsb_reads 7 0).bind fun x => ?_
  dsimp only
  refine Reads.choice (Reads.pure _) ?_
  refine Reads.weaken ((readMsb_reads 1 x).bind fun y => ?_)
  dsimp only
  refine Reads.choice (Reads.pure _) (Reads.choice (Reads.pure _) ?_)
  refine Reads.weaken ((readMsb_reads 1 y).bind fun w => ?_)
  dsimp only
  exact Reads.pure _

theorem readExtra_reads (table : List (Nat × Nat)) (i : Nat) : Reads 0 (readExtra table i) := by
  unfold readExtra
  cases table[i]? with
  | none => exact Reads.fail 0
  | some e =>
      show Reads 0 (fun bits => (readLsb e.2 bits).bind fun x => some (e.1 + x.1, x.2))
      refine Reads.weaken ((readLsb_reads e.2).bind fun n => ?_)
      exact Reads.pure (e.1 + n)

theorem readDistance_reads : Reads 5 readDistance :=
  (readMsb_reads 5 0).bind fun d => readExtra_reads distanceTable d

theorem inflateSymbols_reads (fuel : Nat) (window : List UInt8) :
    Reads 0 (inflateSymbols fuel window) := by
  induction fuel generalizing window with
  | zero => exact Reads.fail 0
  | succ fuel ih =>
      refine Reads.weaken (decodeLit_reads.bind fun s => ?_)
      dsimp only
      -- a literal, the end of the block, or a match
      refine Reads.choice (ih _) (Reads.choice (Reads.pure _) ?_)
      refine (readExtra_reads lengthTable (s - 257)).bind fun len => ?_
      dsimp only
      refine Reads.weaken (readDistance_reads.bind fun dist => ?_)
      dsimp only
      cases copyMatch len dist window with
      | none => exact Reads.fail 0
      | some window' => exact ih window'

/-- **A block is read by itself**: what follows it plays no part. -/
theorem inflateBlock_reads : Reads 0 inflateBlock := by
  intro bits out r h
  match bits, h with
  | true :: true :: false :: bits, h =>
      obtain ⟨used, hbits, -, hall⟩ := inflateSymbols_reads symbolLimit [] bits out r h
      exact ⟨true :: true :: false :: used, by rw [hbits]; rfl, Nat.zero_le _, hall⟩

theorem readLsb_lt (k : Nat) {bits r : List Bool} {n : Nat} (h : readLsb k bits = some (n, r)) :
    n < 2 ^ k := by
  induction k generalizing bits n r with
  | zero =>
      obtain ⟨rfl, -⟩ := Prod.mk.inj (Option.some.inj h)
      exact Nat.one_pos
  | succ k ih =>
      cases bits with
      | nil => exact nomatch h
      | cons b bits =>
          obtain ⟨⟨m, r'⟩, hm, hmr⟩ := Option.map_eq_some_iff.mp h
          obtain ⟨rfl, -⟩ := Prod.mk.inj hmr
          have hlt := ih hm
          have hb := Bool.toNat_lt b
          rw [Nat.pow_succ]
          omega

/-- Lengths go up to 258. -/
theorem readExtra_length_le {len i : Nat} {bits r : List Bool}
    (h : readExtra lengthTable i bits = some (len, r)) : len ≤ 258 := by
  have htable : ∀ e ∈ lengthTable, e.1 + 2 ^ e.2 ≤ 259 := by decide
  unfold readExtra at h
  cases he : lengthTable[i]? with
  | none => rw [he] at h; exact nomatch h
  | some e =>
      rw [he] at h
      obtain ⟨⟨x, r'⟩, hx, hlen⟩ := Option.bind_eq_some_iff.mp h
      obtain ⟨rfl, -⟩ := Prod.mk.inj (Option.some.inj hlen)
      have hlt := readLsb_lt e.2 hx
      have hmax := htable e (List.mem_of_getElem? he)
      show e.1 + x ≤ 258
      omega

theorem copyMatch_length (len dist : Nat) {window window' : List UInt8}
    (h : copyMatch len dist window = some window') : window'.length = window.length + len := by
  induction len generalizing window with
  | zero =>
      obtain rfl := Option.some.inj h
      rfl
  | succ len ih =>
      unfold copyMatch at h
      cases hb : window[dist - 1]? with
      | none => rw [hb] at h; exact nomatch h
      | some b =>
          rw [hb] at h
          rw [ih h, List.length_cons]
          omega

/-- What a reader leaves is shorter by at least what it takes. -/
theorem Reads.length_le {β : Type} {c : Nat} {p : List Bool → Option (β × List Bool)}
    (h : Reads c p) {bits r : List Bool} {a : β} (hp : p bits = some (a, r)) :
    r.length + c ≤ bits.length := by
  obtain ⟨used, rfl, hc, -⟩ := h bits a r hp
  rw [List.length_append]
  omega

/-- Each symbol pays for the bytes it writes: at most 129 for a bit. -/
theorem inflateSymbols_growth (fuel : Nat) {window window' : List UInt8} {bits r : List Bool}
    (h : inflateSymbols fuel window bits = some (window', r)) :
    window'.length + 129 * r.length ≤ window.length + 129 * bits.length := by
  induction fuel generalizing window bits with
  | zero => exact nomatch h
  | succ fuel ih =>
      obtain ⟨⟨s, r₁⟩, hs, h⟩ := Option.bind_eq_some_iff.mp h
      have hr₁ := decodeLit_reads.length_le hs
      dsimp only at h
      split at h
      next =>
        -- a literal takes at least seven bits and writes one byte
        have hgrow := ih h
        rw [List.length_cons] at hgrow
        omega
      next =>
        split at h
        next =>
          obtain ⟨rfl, rfl⟩ := Prod.mk.inj (Option.some.inj h)
          omega
        next =>
          obtain ⟨⟨len, r₂⟩, hlen, h⟩ := Option.bind_eq_some_iff.mp h
          obtain ⟨⟨dist, r₃⟩, hdist, h⟩ := Option.bind_eq_some_iff.mp h
          dsimp only at hdist h
          have hr₂ := (readExtra_reads _ _).length_le hlen
          have hr₃ := readDistance_reads.length_le hdist
          have hle := readExtra_length_le hlen
          cases hcopy : copyMatch len dist window with
          | none => rw [hcopy] at h; exact nomatch h
          | some window₁ =>
              rw [hcopy] at h
              have hgrow := ih h
              have hlen₁ := copyMatch_length len dist hcopy
              -- a match takes at least 7 + 5 bits and writes at most 258 bytes
              omega

/-- **Expansion**: a block writes at most 129 bytes for each bit it takes. -/
theorem inflateBlock_growth {bits r : List Bool} {out : List UInt8}
    (h : inflateBlock bits = some (out, r)) : out.length + 129 * r.length ≤ 129 * bits.length := by
  match bits, h with
  | true :: true :: false :: bits, h =>
      have hgrow := inflateSymbols_growth symbolLimit h
      simp only [List.length_cons, List.length_nil] at hgrow ⊢
      omega

end Gzip
