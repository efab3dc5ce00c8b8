/-
  Bancho.Library.Framing
  ──────────────────────
  Incremental framing: a parser that looks at the front of a buffer and answers
  "more bytes", "bad", or "a frame of `n` symbols", in a mode that each frame may
  change; a drain loop that takes frames off the buffer until it must stop; and
  a reader that is fed its stream in pieces.

      parse m s  =  more | bad | frame f n m'
      drain m s  =  frames, mode, rest, bad

  §1  framers and the drain loop;
  §2  the laws a framer may have (`Stable`, `Prompt`);
  §3  draining a stream that arrives in two parts;
  §4  **segmentation invariance**: a stable framer answers for the stream, not
      for the way it was cut (`feedAll_agrees`);
  §5  streams made of frames, and their prefixes (`drain_chain`, `drain_cut`);
  §6  what a drain finds is the one way to take the stream apart
      (`exists_chain`, `drain_of_chain`), and chains are read off their symbols
      (`Chain.initial_iff`).
-/
import Mathlib.Algebra.Ring.Nat
import Mathlib.Data.List.Basic
import Mathlib.Data.List.Induction

namespace Framing

/-! ## §1. Framers and the drain loop. -/

/-- What the front of a buffer is. -/
inductive Answer (μ φ : Type) where
  | more
  | bad
  | frame (f : φ) (n : Nat) (next : μ)
  deriving DecidableEq

/-- A framer over modes `μ`, symbols `α` and frames `φ`.  A frame is not empty
and does not reach past the buffer. -/
structure Framer (μ α φ : Type) where
  parse : μ → List α → Answer μ φ
  frame_size : ∀ m s f n m', parse m s = .frame f n m' → 0 < n ∧ n ≤ s.length

/-- What a reader has done so far: the frames in order, the mode, the symbols
not yet framed, and whether it gave up. -/
structure Outcome (μ α φ : Type) where
  frames : List φ
  mode : μ
  rest : List α
  bad : Bool

/-- The same frames, mode and verdict, and, unless given up, the same rest. -/
structure Outcome.Agrees {μ α φ : Type} (o o' : Outcome μ α φ) : Prop where
  frames : o.frames = o'.frames
  mode : o.mode = o'.mode
  bad : o.bad = o'.bad
  rest : o.bad = false → o.rest = o'.rest

theorem Outcome.Agrees.symm {μ α φ : Type} {o o' : Outcome μ α φ} (h : Outcome.Agrees o o') :
    Outcome.Agrees o' o :=
  ⟨h.frames.symm, h.mode.symm, h.bad.symm, fun hb => (h.rest (h.bad.trans hb)).symm⟩

theorem Outcome.Agrees.trans {μ α φ : Type} {o o' o'' : Outcome μ α φ}
    (h : Outcome.Agrees o o') (h' : Outcome.Agrees o' o'') : Outcome.Agrees o o'' :=
  ⟨h.frames.trans h'.frames, h.mode.trans h'.mode, h.bad.trans h'.bad,
    fun hb => (h.rest hb).trans (h'.rest (h.bad.symm.trans hb))⟩

namespace Framer

variable {μ α φ : Type} (F : Framer μ α φ)

theorem drop_lt {m m' : μ} {s : List α} {f : φ} {n : Nat} (h : F.parse m s = .frame f n m') :
    (s.drop n).length < s.length := by
  have hn := F.frame_size m s f n m' h
  rw [List.length_drop]
  omega

/-- Take frames off the buffer until the answer is not a frame. -/
def drain (m : μ) (s : List α) : Outcome μ α φ :=
  match _h : F.parse m s with
  | .more => ⟨[], m, s, false⟩
  | .bad => ⟨[], m, s, true⟩
  | .frame f n m' =>
      let o := drain m' (s.drop n)
      { o with frames := f :: o.frames }
termination_by s.length
decreasing_by exact F.drop_lt _h

variable {F}

theorem drain_more {m : μ} {s : List α} (h : F.parse m s = .more) :
    F.drain m s = ⟨[], m, s, false⟩ := by
  rw [drain]
  split
  · rfl
  · rename_i h'
    exact nomatch h.symm.trans h'
  · rename_i h'
    exact nomatch h.symm.trans h'

theorem drain_bad {m : μ} {s : List α} (h : F.parse m s = .bad) :
    F.drain m s = ⟨[], m, s, true⟩ := by
  rw [drain]
  split
  · rename_i h'
    exact nomatch h.symm.trans h'
  · rfl
  · rename_i h'
    exact nomatch h.symm.trans h'

theorem drain_frame {m m' : μ} {s : List α} {f : φ} {n : Nat}
    (h : F.parse m s = .frame f n m') :
    F.drain m s
      = { F.drain m' (s.drop n) with frames := f :: (F.drain m' (s.drop n)).frames } := by
  conv => lhs; rw [drain]
  split
  · rename_i h'
    exact nomatch h.symm.trans h'
  · rename_i h'
    exact nomatch h.symm.trans h'
  · rename_i f' n' k' h'
    obtain ⟨rfl, rfl, rfl⟩ := Answer.frame.inj (h.symm.trans h')
    rfl

/-- Frames of `k` symbols or more leave room for one in `k` symbols. -/
theorem frames_length_mul_le {k : Nat}
    (hF : ∀ m s f n m', F.parse m s = .frame f n m' → k ≤ n) (m : μ) (s : List α) :
    (F.drain m s).frames.length * k ≤ s.length := by
  induction m, s using drain.induct F with
  | case1 m s h =>
      rw [drain_more h, List.length_nil, Nat.zero_mul]
      exact Nat.zero_le _
  | case2 m s h =>
      rw [drain_bad h, List.length_nil, Nat.zero_mul]
      exact Nat.zero_le _
  | case3 m s f n m' h ih =>
      have hk := hF m s f n m' h
      have hn := F.frame_size m s f n m' h
      rw [List.length_drop] at ih
      rw [drain_frame h, List.length_cons, Nat.succ_mul]
      omega

/-! ## §2. Laws. -/

/-- More symbols change neither a frame nor a refusal, and an empty buffer is
neither. -/
structure Stable (F : Framer μ α φ) : Prop where
  nil : ∀ m, F.parse m [] = .more
  frame : ∀ {m s f n m'} (t : List α), F.parse m s = .frame f n m' →
    F.parse m (s ++ t) = .frame f n m'
  bad : ∀ {m s} (t : List α), F.parse m s = .bad → F.parse m (s ++ t) = .bad

/-- Short of a frame the framer waits for it. -/
def Prompt (F : Framer μ α φ) : Prop :=
  ∀ {m s f n m'} (u : List α), F.parse m s = .frame f n m' → u <+: s → u.length < n →
    F.parse m u = .more

/-- A frame does not depend on what follows it. -/
def Local (F : Framer μ α φ) : Prop :=
  ∀ {m s f n m'}, F.parse m s = .frame f n m' → F.parse m (s.take n) = .frame f n m'

/-! ## §3. A stream in two parts. -/

/-- Go on after an outcome with more symbols; after giving up they only pile up. -/
def extend (F : Framer μ α φ) (o : Outcome μ α φ) (t : List α) : Outcome μ α φ :=
  if o.bad then { o with rest := o.rest ++ t }
  else { F.drain o.mode (o.rest ++ t) with
    frames := o.frames ++ (F.drain o.mode (o.rest ++ t)).frames }

theorem extend_frames_cons (o : Outcome μ α φ) (f : φ) (t : List α) :
    F.extend { o with frames := f :: o.frames } t
      = { F.extend o t with frames := f :: (F.extend o t).frames } := by
  unfold extend
  cases o.bad <;> rfl

/-- **Draining in two parts**: drain the first, go on with the second. -/
theorem drain_append (hF : F.Stable) (m : μ) (s t : List α) :
    F.drain m (s ++ t) = F.extend (F.drain m s) t := by
  induction m, s using drain.induct F with
  | case1 m s h =>
      -- the first part waits: nothing was taken off it
      rw [drain_more h]
      simp only [extend, Bool.false_eq_true, if_false, List.nil_append]
  | case2 m s h =>
      rw [drain_bad h, drain_bad (hF.bad t h)]
      rfl
  | case3 m s f n m' h ih =>
      -- the frame lies in the first part, so the second only follows what is left
      have hn := F.frame_size m s f n m' h
      rw [drain_frame h, drain_frame (hF.frame t h),
        List.drop_append_of_le_length hn.2, ih, extend_frames_cons]

/-! ## §4. Segmentation invariance. -/

/-- Read one more piece; a reader that gave up reads nothing. -/
def feed (F : Framer μ α φ) (o : Outcome μ α φ) (t : List α) : Outcome μ α φ :=
  if o.bad then o else F.extend o t

/-- Read a stream in pieces, from a start mode. -/
def feedAll (F : Framer μ α φ) (m : μ) (pieces : List (List α)) : Outcome μ α φ :=
  pieces.foldl F.feed ⟨[], m, [], false⟩

/-- Reading a piece after agreeing is draining it all. -/
theorem feed_agrees {o o' : Outcome μ α φ} (h : Outcome.Agrees o o') (t : List α) :
    Outcome.Agrees (F.feed o t) (F.extend o' t) := by
  have hb := h.bad
  unfold feed extend
  cases hob : o.bad with
  | true =>
      have ho' : o'.bad = true := hb.symm.trans hob
      simp only [ho', if_true]
      exact ⟨h.frames, h.mode, hob, fun hf => nomatch hob.symm.trans hf⟩
  | false =>
      have ho' : o'.bad = false := hb.symm.trans hob
      simp only [ho', Bool.false_eq_true, if_false, h.mode, h.rest hob, h.frames]
      exact ⟨rfl, rfl, rfl, fun _ => rfl⟩

/-- **Segmentation invariance**: reading a stream in pieces is draining it whole. -/
theorem feedAll_agrees (hF : F.Stable) (m : μ) (pieces : List (List α)) :
    Outcome.Agrees (F.feedAll m pieces) (F.drain m pieces.flatten) := by
  induction pieces using List.reverseRecOn with
  | nil =>
      rw [List.flatten_nil, drain_more (hF.nil m)]
      exact ⟨rfl, rfl, rfl, fun _ => rfl⟩
  | append_singleton pieces t ih =>
      rw [List.flatten_concat, drain_append hF, feedAll, List.foldl_concat]
      exact feed_agrees ih t

/-! ## §5. Streams made of frames. -/

/-- `Chain m bs m'`: each string of `bs` is one frame as a whole, read in the
mode the one before it left; the frames are beside their strings. -/
inductive Chain (F : Framer μ α φ) : μ → List (List α × φ) → μ → Prop
  | nil (m : μ) : Chain F m [] m
  | cons {m m' m'' : μ} {b : List α} {f : φ} {bs : List (List α × φ)} :
      F.parse m b = .frame f b.length m' → Chain F m' bs m'' → Chain F m ((b, f) :: bs) m''

/-- The symbols of a chain. -/
def symbols (bs : List (List α × φ)) : List α := (bs.map Prod.fst).flatten

/-- Frames followed by anything are drained off it in order. -/
theorem drain_chain (hF : F.Stable) {m m' : μ} {bs : List (List α × φ)}
    (h : F.Chain m bs m') (t : List α) :
    F.drain m (symbols bs ++ t)
      = { F.drain m' t with frames := bs.map Prod.snd ++ (F.drain m' t).frames } := by
  induction h with
  | nil m => rfl
  | @cons m m' m'' b f bs hb _ ih =>
      have hstream : symbols ((b, f) :: bs) ++ t = b ++ (symbols bs ++ t) := by
        simp only [symbols, List.map_cons, List.flatten_cons, List.append_assoc]
      rw [hstream, drain_frame (hF.frame _ hb), List.drop_left, ih]
      rfl

/-- **A cut of a stream of frames**: what has arrived is drained into exactly
the frames that are complete in it, the reader waits, and once all are there
nothing is left over. -/
theorem drain_cut (hF : F.Stable) (hP : F.Prompt) {m m' : μ} {bs : List (List α × φ)}
    (h : F.Chain m bs m') :
    ∀ u, u <+: symbols bs → ∃ k, k ≤ bs.length
      ∧ (F.drain m u).frames = (bs.take k).map Prod.snd
      ∧ (F.drain m u).bad = false
      ∧ (symbols (bs.take k)).length ≤ u.length
      ∧ (k < bs.length → u.length < (symbols (bs.take (k + 1))).length) := by
  induction h with
  | nil m =>
      intro u hu
      obtain rfl : u = [] := List.prefix_nil.mp hu
      rw [drain_more (hF.nil m)]
      exact ⟨0, Nat.le_refl _, rfl, rfl, Nat.le_refl _, fun hk => absurd hk (Nat.lt_irrefl 0)⟩
  | @cons m m' m'' b f bs hb _ ih =>
      intro u hu
      have hstream : symbols ((b, f) :: bs) = b ++ symbols bs := by
        simp only [symbols, List.map_cons, List.flatten_cons]
      rw [hstream] at hu
      by_cases hlen : u.length < b.length
      · -- inside the first frame: nothing is drained yet
        have hub : u <+: b :=
          List.prefix_of_prefix_length_le hu (List.prefix_append _ _) (Nat.le_of_lt hlen)
        rw [drain_more (hP u hb hub hlen)]
        refine ⟨0, Nat.zero_le _, rfl, rfl, Nat.zero_le _, ?_⟩
        intro _
        simp only [symbols, List.take_succ_cons, List.take_zero, List.map_cons, List.map_nil,
          List.flatten_cons, List.flatten_nil, List.append_nil]
        exact hlen
      · -- past the first frame: it is drained, and the rest is a cut of the others
        obtain ⟨v, rfl⟩ : b <+: u :=
          List.prefix_of_prefix_length_le (List.prefix_append _ _) hu (Nat.le_of_not_lt hlen)
        obtain ⟨k, hk, hframes, hbad, hlow, hhigh⟩ :=
          ih v ((List.prefix_append_right_inj b).mp hu)
        rw [drain_frame (hF.frame v hb), List.drop_left]
        refine ⟨k + 1, by simpa using hk, ?_, hbad, ?_, ?_⟩
        · simp only [List.take_succ_cons, List.map_cons, hframes]
        · simpa [symbols, List.take_succ_cons] using hlow
        · intro hlt
          have hhigh' := hhigh (by simpa using hlt)
          simpa [symbols, List.take_succ_cons] using hhigh'

/-! ## §6. Taking a stream apart. -/

theorem symbols_cons (b : List α) (f : φ) (bs : List (List α × φ)) :
    symbols ((b, f) :: bs) = b ++ symbols bs := rfl

/-- **What a drain finds is there**: its frames are a chain at the front of the
stream, and on the rest the framer has stopped. -/
theorem exists_chain (hL : F.Local) (m : μ) (s : List α) :
    ∃ bs, F.Chain m bs (F.drain m s).mode
      ∧ (F.drain m s).frames = bs.map Prod.snd
      ∧ s = symbols bs ++ (F.drain m s).rest
      ∧ F.parse (F.drain m s).mode (F.drain m s).rest
        = if (F.drain m s).bad then .bad else .more := by
  induction m, s using drain.induct F with
  | case1 m s h =>
      rw [drain_more h]
      exact ⟨[], .nil m, rfl, rfl, h⟩
  | case2 m s h =>
      rw [drain_bad h]
      exact ⟨[], .nil m, rfl, rfl, h⟩
  | case3 m s f n m' h ih =>
      have hn := F.frame_size m s f n m' h
      have hlen : (s.take n).length = n := List.length_take_of_le hn.2
      obtain ⟨bs, hchain, hframes, hbytes, hstop⟩ := ih
      rw [drain_frame h]
      refine ⟨(s.take n, f) :: bs, .cons ?_ hchain, ?_, ?_, hstop⟩
      · rw [hlen]
        exact hL h
      · rw [hframes]
        rfl
      · rw [symbols_cons, List.append_assoc, ← hbytes, List.take_append_drop]

/-- **And nothing else is**: a chain before a rest on which the framer stops is
what the drain finds. -/
theorem drain_of_chain (hF : F.Stable) {m m' : μ} {bs : List (List α × φ)}
    (h : F.Chain m bs m') {rest : List α} {bad : Bool}
    (hstop : F.parse m' rest = if bad then .bad else .more) :
    F.drain m (symbols bs ++ rest) = ⟨bs.map Prod.snd, m', rest, bad⟩ := by
  rw [drain_chain hF h]
  cases bad with
  | false => rw [drain_more hstop, List.append_nil]
  | true => rw [drain_bad hstop, List.append_nil]

/-- The first frame of a chain is what the framer sees on its symbols. -/
theorem parse_symbols (hF : F.Stable) {m m' : μ} {b : List α} {f : φ}
    (h : F.parse m b = .frame f b.length m') (bs : List (List α × φ)) :
    F.parse m (symbols ((b, f) :: bs)) = .frame f b.length m' :=
  hF.frame _ h

/-- **Chains are read off their symbols**: one is an initial part of another
exactly when its symbols are. -/
theorem Chain.initial_iff (hF : F.Stable) {m m' m'' : μ} {bs cs : List (List α × φ)}
    (hbs : F.Chain m bs m') (hcs : F.Chain m cs m'') : symbols bs <+: symbols cs ↔ bs <+: cs := by
  constructor
  · intro hsymbols
    induction hbs generalizing cs with
    | nil m => exact List.nil_prefix
    | @cons m m₁ _ b f bs hb _ ih =>
        have hpos := (F.frame_size m b f b.length m₁ hb).1
        cases hcs with
        | nil m =>
            -- a frame is not empty, so its symbols do not fit
            have hlen := hsymbols.length_le
            rw [symbols_cons, List.length_append] at hlen
            have hnil : (symbols ([] : List (List α × φ))).length = 0 := rfl
            omega
        | @cons m m₂ _ c g cs hc hcs =>
            -- both first frames are what is parsed on the longer stream
            obtain ⟨t, ht⟩ := hsymbols
            have hfirst := hF.frame t (parse_symbols hF hb bs)
            rw [ht, parse_symbols hF hc cs] at hfirst
            obtain ⟨rfl, hlen, rfl⟩ := Answer.frame.inj hfirst
            rw [symbols_cons, symbols_cons, List.append_assoc] at ht
            obtain ⟨rfl, hrest⟩ := List.append_inj ht hlen.symm
            obtain ⟨t', ht'⟩ := ih hcs ⟨t, hrest⟩
            exact ⟨t', congrArg ((b, g) :: ·) ht'⟩
  · intro hinit
    obtain ⟨ds, rfl⟩ := hinit
    refine ⟨symbols ds, ?_⟩
    unfold symbols
    rw [List.map_append, List.flatten_append]

end Framer

end Framing
