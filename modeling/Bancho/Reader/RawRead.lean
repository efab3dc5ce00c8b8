/-
  Bancho.Reader.RawRead
  ─────────────────────
  The line of a read shows its length and its first 64 bytes, and depends on nothing
  else: not on what earlier reads left in `read_buf` (`raw_read_faithful`).
-/
import Mathlib.Data.List.Basic
import Bancho.Server.Logger

namespace Bancho.Logger


/-! ## §1. One byte. -/

/-- The value of a hexadecimal digit as `hexByte` writes it. -/
def digitValue (c : Char) : Nat := if c ≤ '9' then c.toNat - 48 else c.toNat - 87

theorem hexByte_length (b : UInt8) : (hexByte b).length = 2 := by
  have hall : ∀ n, n < 256 → (setw 2 '0' (Nat.toDigits 16 n)).length = 2 := by decide +kernel
  exact hall b.toNat b.toNat_lt

/-- The digits of a byte are those of no other. -/
theorem hexByte_injective {a b : UInt8} (h : hexByte a = hexByte b) : a = b := by
  have hall : ∀ n, n < 256 →
      (setw 2 '0' (Nat.toDigits 16 n)).foldl (fun v c => 16 * v + digitValue c) 0 = n := by
    decide +kernel
  have hvalue := hall a.toNat a.toNat_lt
  have hsame : setw 2 '0' (Nat.toDigits 16 a.toNat) = setw 2 '0' (Nat.toDigits 16 b.toNat) := h
  rw [hsame, hall b.toNat b.toNat_lt] at hvalue
  exact UInt8.toNat_inj.mp hvalue.symm

/-! ## §2. The loop. -/

/-- Each byte after a blank. -/
def spaced (bytes : List UInt8) : List Char := bytes.flatMap fun b => ' ' :: hexByte b

theorem spaced_append (bs cs : List UInt8) : spaced (bs ++ cs) = spaced bs ++ spaced cs :=
  List.flatMap_append

/-- **The loop** writes the first `n` bytes, with a blank between two. -/
theorem previewLoop_eq (readBuf : List UInt8) (n : Nat) (h : n ≤ readBuf.length) :
    (List.range n).foldl (previewStep readBuf) [] = (spaced (readBuf.take n)).drop 1 := by
  induction n with
  | zero => rfl
  | succ n ih =>
      have hlt : n < readBuf.length := h
      rw [List.range_succ, List.foldl_concat, ih (Nat.le_of_lt hlt),
        List.take_succ_eq_append_getElem hlt, spaced_append]
      have hget : readBuf.getD n 0 = readBuf[n] := by
        rw [List.getD_eq_getElem?_getD, List.getElem?_eq_getElem hlt]
        rfl
      have hone : spaced [readBuf[n]] = ' ' :: hexByte readBuf[n] := List.append_nil _
      unfold previewStep
      rw [hget, hone]
      by_cases hzero : n = 0
      · -- the first byte comes without a blank
        subst hzero
        rfl
      · have hpos : 1 ≤ (spaced (readBuf.take n)).length := by
          obtain ⟨b, rest, hcons⟩ := List.exists_cons_of_ne_nil
            (List.ne_nil_of_length_pos (l := readBuf.take n) (by
              rw [List.length_take]
              omega))
          rw [hcons]
          exact Nat.succ_pos _
        rw [if_pos hzero, List.drop_append_of_le_length hpos, List.append_assoc]
        rfl

theorem spaced_injective {bs cs : List UInt8} (h : spaced bs = spaced cs) : bs = cs := by
  induction bs generalizing cs with
  | nil =>
      cases cs with
      | nil => rfl
      | cons c cs => exact nomatch h
  | cons b bs ih =>
      cases cs with
      | nil => exact nomatch h
      | cons c cs =>
          have h : (' ' :: hexByte b) ++ spaced bs = (' ' :: hexByte c) ++ spaced cs := h
          obtain ⟨hbyte, hrest⟩ := List.append_inj h (by
            rw [List.length_cons, List.length_cons, hexByte_length, hexByte_length])
          rw [hexByte_injective (List.cons.inj hbyte).2, ih hrest]

/-- Between lists of one length the first blank says nothing. -/
theorem spaced_drop_injective {bs cs : List UInt8} (hlen : bs.length = cs.length)
    (h : (spaced bs).drop 1 = (spaced cs).drop 1) : bs = cs := by
  cases bs with
  | nil => exact (List.length_eq_zero_iff.mp hlen.symm).symm
  | cons b bs =>
      cases cs with
      | nil => exact nomatch hlen
      | cons c cs => exact spaced_injective (congrArg (' ' :: ·) h)

theorem preview_eq (readBuf : List UInt8) (n : Nat) (h : n ≤ readBuf.length) :
    preview readBuf n = (spaced (readBuf.take (min n 64))).drop 1
      ++ if n > 64 then " ...".toList else [] := by
  unfold preview
  show (if n > 64 then (List.range (min n 64)).foldl (previewStep readBuf) [] ++ _
    else (List.range (min n 64)).foldl (previewStep readBuf) []) = _
  rw [previewLoop_eq readBuf (min n 64) (Nat.le_trans (Nat.min_le_left n 64) h)]
  by_cases hlong : n > 64
  · rw [if_pos hlong, if_pos hlong]
  · rw [if_neg hlong, if_neg hlong, List.append_nil]

/-! ## §3. The line. -/

/-- A number is over where the first blank is. -/
theorem digits_append_inj {n m : Nat} {x y : List Char}
    (h : Nat.toDigits 10 n ++ ' ' :: x = Nat.toDigits 10 m ++ ' ' :: y) : n = m ∧ x = y := by
  have hdigits : ∀ k (u : List Char),
      (Nat.toDigits 10 k ++ ' ' :: u).takeWhile Char.isDigit = Nat.toDigits 10 k := by
    intro k u
    rw [List.takeWhile_append_of_pos fun c hc =>
      Nat.isDigit_of_mem_toDigits (by decide) (by decide) hc]
    exact List.append_nil _
  have hsame : Nat.toDigits 10 n = Nat.toDigits 10 m := by
    rw [← hdigits n x, h, hdigits m y]
  rw [hsame] at h
  refine ⟨?_, (List.cons.inj (List.append_cancel_left h)).2⟩
  rw [← Nat.ofDigitChars_ten_toDigits (n := n), hsame, Nat.ofDigitChars_ten_toDigits]

theorem line_inj {lead tail : List Char} {n m : Nat} {x y : List Char}
    (h : lead ++ (Nat.toDigits 10 n ++ ' ' :: x) ++ tail
      = lead ++ (Nat.toDigits 10 m ++ ' ' :: y) ++ tail) : n = m ∧ x = y :=
  digits_append_inj (List.append_cancel_left (List.append_cancel_right h))

/-- What the line of a read shows: its length, and this much of its bytes. -/
def shown (readBuf : List UInt8) (n : Nat) : List UInt8 := readBuf.take (min n 64)

theorem preview_iff {buf buf' : List UInt8} {n : Nat} (h : n ≤ buf.length)
    (h' : n ≤ buf'.length) : preview buf n = preview buf' n ↔ shown buf n = shown buf' n := by
  rw [preview_eq buf n h, preview_eq buf' n h']
  constructor
  · intro heq
    refine spaced_drop_injective ?_ (List.append_cancel_right heq)
    show (buf.take (min n 64)).length = (buf'.take (min n 64)).length
    rw [List.length_take, List.length_take]
    omega
  · intro hsame
    unfold shown at hsame
    rw [hsame]

/-- What stands between the number and the preview. -/
def between : Option (List Char) → List Char
  | some endpoint => "bytes from ".toList ++ endpoint ++ ": ".toList
  | none => "bytes: ".toList

/-- A line that begins with a number, of a category that goes to `std::cout`. -/
theorem log_number {category : Category} (hon : isEnabled category = true)
    (hout : category ≠ .error) {lead rest : List Char} {args : List (List Char)} (n : Nat)
    (hargs : args.flatten = ' ' :: rest) :
    log category (lead :: Nat.toDigits 10 n :: args)
      = some (.cout, lead ++ (Nat.toDigits 10 n ++ ' ' :: rest) ++ ['\n']) := by
  unfold log
  rw [hon, if_neg hout, List.flatten_cons, List.flatten_cons, hargs]
  rfl

theorem logRawRead_eq (endpoint : Option (List Char)) (buf : List UInt8) (n : Nat) :
    logRawRead endpoint buf n
      = some (.cout, "Raw read ".toList
          ++ (Nat.toDigits 10 n ++ ' ' :: (between endpoint ++ preview buf n)) ++ ['\n']) := by
  have hfrom : " bytes from ".toList = ' ' :: "bytes from ".toList := by decide
  have hbytes : " bytes: ".toList = ' ' :: "bytes: ".toList := by decide
  cases endpoint with
  | none =>
      refine log_number rfl (by decide) n ?_
      rw [hbytes]
      simp only [List.flatten_cons, List.flatten_nil, List.append_nil]
      rfl
  | some e =>
      refine log_number rfl (by decide) n ?_
      rw [hfrom]
      simp only [List.flatten_cons, List.flatten_nil, List.append_nil]
      unfold between
      rw [List.append_assoc, List.append_assoc]
      rfl

/-- The line tells the length and what is shown. -/
theorem shown_of_line {endpoint : Option (List Char)} {buf buf' : List UInt8} {n n' : Nat}
    (h : n ≤ buf.length) (h' : n' ≤ buf'.length)
    (hline : logRawRead endpoint buf n = logRawRead endpoint buf' n') :
    n = n' ∧ shown buf n = shown buf' n' := by
  rw [logRawRead_eq, logRawRead_eq, Option.some.injEq, Prod.mk.injEq] at hline
  obtain ⟨hn, hrest⟩ := line_inj hline.2
  subst hn
  exact ⟨rfl, (preview_iff h h').mp (List.append_cancel_left hrest)⟩

/-- **The line of a read is faithful**: two reads of a session are logged alike
exactly when they are of one length and agree in the first 64 bytes.  What else is
in `read_buf` does not show. -/
theorem raw_read_faithful (endpoint : Option (List Char)) (buf buf' : List UInt8) (n n' : Nat)
    (h : n ≤ buf.length) (h' : n' ≤ buf'.length) :
    logRawRead endpoint buf n = logRawRead endpoint buf' n'
      ↔ n = n' ∧ buf.take (min n 64) = buf'.take (min n' 64) := by
  constructor
  · intro hline
    exact shown_of_line h h' hline
  · rintro ⟨rfl, hsame⟩
    rw [logRawRead_eq, logRawRead_eq, (preview_iff h h').mpr hsame]

/-- A read of two bytes, with one and with another byte behind them in `read_buf`. -/
theorem raw_read_faithful_stale :
    logRawRead none [222, 173, 7] 2 = logRawRead none [222, 173, 9] 2 :=
  (raw_read_faithful none [222, 173, 7] [222, 173, 9] 2 2 (by decide) (by decide)).mpr
    ⟨rfl, rfl⟩

example : preview [222, 173, 7] 2 = ['d', 'e', ' ', 'a', 'd'] := by decide

end Bancho.Logger
