/-
  Bancho.Library.LittleEndian
  ───────────────────────────
  Little-endian byte strings and the numbers they stand for: `bytesOf k n` is
  the `k`-byte string of `n`, `valueOf` reads a string back.  The two are
  inverse on the numbers below `256 ^ k` and on the strings of length `k`, in
  both directions, so a field read off a wire and a field put on a wire are the
  same bytes.
-/
import Mathlib.Algebra.Ring.Nat
import Mathlib.Data.List.GetD

namespace LittleEndian

/-- The `k` low bytes of `n`, least significant first. -/
def bytesOf : Nat → Nat → List UInt8
  | 0, _ => []
  | k + 1, n => UInt8.ofNat n :: bytesOf k (n / 256)

/-- The number a byte string stands for, least significant byte first. -/
def valueOf : List UInt8 → Nat
  | [] => 0
  | b :: bs => b.toNat + 256 * valueOf bs

@[simp] theorem length_bytesOf (k n : Nat) : (bytesOf k n).length = k := by
  induction k generalizing n with
  | zero => rfl
  | succ k ih => simp [bytesOf, ih]

@[simp] theorem valueOf_nil : valueOf [] = 0 := rfl

@[simp] theorem valueOf_cons (b : UInt8) (bs : List UInt8) :
    valueOf (b :: bs) = b.toNat + 256 * valueOf bs := rfl

/-- A string of `k` bytes stands for a number below `256 ^ k`. -/
theorem valueOf_lt (bs : List UInt8) : valueOf bs < 256 ^ bs.length := by
  induction bs with
  | nil => simp
  | cons b bs ih =>
      have hb := b.toNat_lt
      simp only [valueOf_cons, List.length_cons, Nat.pow_succ]
      omega

/-- Writing a number and reading it back. -/
theorem valueOf_bytesOf (k n : Nat) (h : n < 256 ^ k) : valueOf (bytesOf k n) = n := by
  induction k generalizing n with
  | zero =>
      have hn : n = 0 := by simpa using h
      simp [bytesOf, hn]
  | succ k ih =>
      -- the low byte, and the other bytes of `n / 256`
      have hd : n / 256 < 256 ^ k := by
        rw [Nat.pow_succ] at h
        omega
      simp only [bytesOf, valueOf_cons, ih _ hd, UInt8.toNat_ofNat']
      omega

/-- Reading a string and writing it back. -/
theorem bytesOf_valueOf (bs : List UInt8) : bytesOf bs.length (valueOf bs) = bs := by
  induction bs with
  | nil => rfl
  | cons b bs ih =>
      have hb := b.toNat_lt
      have hdiv : (b.toNat + 256 * valueOf bs) / 256 = valueOf bs := by omega
      have hlow : UInt8.ofNat (b.toNat + 256 * valueOf bs) = b := by
        apply UInt8.toNat_inj.mp
        rw [UInt8.toNat_ofNat']
        omega
      simp only [valueOf_cons, List.length_cons, bytesOf, hdiv, ih, hlow]

end LittleEndian
