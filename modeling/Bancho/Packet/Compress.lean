/-
  Bancho.Packet.Compress
  ──────────────────────
  The loop of `gzip_compress` against the contract of deflate.

      while (status == Z_OK)
          deflate(avail_in > 0 ? Z_NO_FLUSH : Z_FINISH)  into 4096 bytes

  The flush mode is chosen anew for each call.  What makes this right is an
  invariant of two phases (`Driven`): as long as input is unread the stream takes
  input, and once none is, every call is `Z_FINISH` without input, whatever the
  output buffer did meanwhile.

  Main result: `gzipCompress_returns` — the calls follow the rules of deflate,
  none of them is `Z_BUF_ERROR`, the last one is `Z_STREAM_END`, each byte of the
  content is taken once, and the value is all that was written.
-/
import Bancho.Server.FixedZlib

namespace Bancho.BanchoPacket

open Streaming

/-! ## §1. The calling rules. -/

/-- A call of deflate, as it was made. -/
abbrev DeflateCall (z : Zlib) : Type := Machine.Made Flush z.deflate.State UInt8 UInt8

/-- The rules for a caller of deflate: room in the output of each call, and after
`Z_FINISH` nothing but `Z_FINISH`, on what was left of the input. -/
inductive FollowsRules {z : Zlib} : List (DeflateCall z) → Prop
  | nil : FollowsRules []
  | cons {c : DeflateCall z} {cs : List (DeflateCall z)} :
      0 < c.room →
      (c.mode = .finish →
        ∀ d ∈ cs, d.mode = .finish ∧ d.input <:+ c.input.drop c.result.consumed) →
      FollowsRules cs → FollowsRules (c :: cs)

/-! ## §2. The two phases. -/

section Phases

variable {z : Zlib} (hz : Zlib.DeflateContract z.deflate)

/-- Before each call: the stream takes input, or it is finishing and there is no
input any more. -/
def Driven (s : z.deflate.State) (inp : List UInt8) : Prop :=
  hz.phase s = .taking ∨ (inp = [] ∧ hz.phase s = .finishing 0)

/-- **What a call of the loop does**: it goes on in one of the two phases, or it
is the last one and all the input is taken. -/
theorem driven_call {s : z.deflate.State} {inp : List UInt8} (h : Driven hz s inp) :
    ((z.deflate.call s (Zlib.deflateFlush inp) inp tmpSize).status = .ok
        ∧ Driven hz (z.deflate.call s (Zlib.deflateFlush inp) inp tmpSize).next
            (inp.drop (z.deflate.call s (Zlib.deflateFlush inp) inp tmpSize).consumed))
      ∨ ((z.deflate.call s (Zlib.deflateFlush inp) inp tmpSize).status = .streamEnd
        ∧ (z.deflate.call s (Zlib.deflateFlush inp) inp tmpSize).consumed = inp.length) := by
  have hroom : 0 < tmpSize := by decide
  by_cases hinp : inp = []
  · -- no input: `Z_FINISH`, the first time or again
    subst hinp
    have hphase : hz.phase s = .taking ∨ hz.phase s = .finishing ([] : List UInt8).length := by
      rcases h with htaking | ⟨-, hfinishing⟩
      · exact Or.inl htaking
      · exact Or.inr hfinishing
    rw [Zlib.deflateFlush_nil]
    rcases hz.finish hphase hroom with ⟨hok, -, hnext⟩ | ⟨hend, -, hall, -⟩
    · left
      refine ⟨hok, Or.inr ⟨List.drop_nil, ?_⟩⟩
      rw [hnext, List.length_nil, Nat.zero_sub]
    · exact Or.inr ⟨hend, hall⟩
  · -- input: `Z_NO_FLUSH`, which makes progress
    have htaking : hz.phase s = .taking := by
      rcases h with htaking | ⟨hnil, -⟩
      · exact htaking
      · exact absurd hnil hinp
    rw [Zlib.deflateFlush_of_ne_nil hinp]
    obtain ⟨hok, hnext⟩ := hz.noFlush htaking hroom (Or.inl hinp)
    exact Or.inl ⟨hok, Or.inl hnext⟩

/-- Without input every call is `Z_FINISH`, without input. -/
theorem calls_nil (s : z.deflate.State) (inp : List UInt8) :
    inp = [] → ∀ d ∈ z.deflate.calls tmpSize s inp,
      d.mode = .finish ∧ d.input = [] := by
  induction s, inp using Machine.calls.induct z.deflate tmpSize with
  | case1 s inp c ih =>
      intro hinp d hd
      subst hinp
      by_cases hok : (z.deflate.call s (Zlib.deflateFlush []) [] tmpSize).status = .ok
      · rw [Machine.calls_ok hok] at hd
        rcases List.mem_cons.mp hd with rfl | hd
        · exact ⟨rfl, rfl⟩
        · exact ih hok List.drop_nil d hd
      · rw [Machine.calls_halt hok] at hd
        obtain rfl := List.mem_singleton.mp hd
        exact ⟨rfl, rfl⟩

/-- **The calls of the loop**, from any state between two calls: they follow the
rules, each is `Z_OK` or the `Z_STREAM_END` that ends the loop, and together they
take the input once. -/
theorem driven_calls (s : z.deflate.State) (inp : List UInt8) :
    Driven hz s inp →
      FollowsRules (z.deflate.calls tmpSize s inp)
        ∧ (∀ d ∈ z.deflate.calls tmpSize s inp,
            d.result.status = .ok ∨ d.result.status = .streamEnd)
        ∧ ((z.deflate.calls tmpSize s inp).map
            Machine.Made.taken).flatten = inp := by
  have hroom : 0 < tmpSize := by decide
  induction s, inp using Machine.calls.induct z.deflate tmpSize with
  | case1 s inp c ih =>
      intro hdriven
      rcases driven_call hz hdriven with ⟨hok, hnext⟩ | ⟨hend, hall⟩
      · obtain ⟨hrules, hstatus, htaken⟩ := ih hok hnext
        rw [Machine.calls_ok hok]
        refine ⟨FollowsRules.cons hroom ?_ hrules, ?_, ?_⟩
        · -- `Z_FINISH` is passed only when nothing is unread
          intro hmode d hd
          have hinp : inp = [] := by
            by_contra hne
            have hfinish : Zlib.deflateFlush inp = .finish := hmode
            rw [Zlib.deflateFlush_of_ne_nil hne] at hfinish
            exact nomatch hfinish
          subst hinp
          obtain ⟨hfinish, hnil⟩ := calls_nil _ _ List.drop_nil d hd
          rw [hnil]
          exact ⟨hfinish, List.nil_suffix⟩
        · intro d hd
          rcases List.mem_cons.mp hd with rfl | hd
          · exact Or.inl hok
          · exact hstatus d hd
        · rw [List.map_cons, List.flatten_cons, htaken]
          exact List.take_append_drop _ inp
      · have hhalt : (z.deflate.call s (Zlib.deflateFlush inp) inp tmpSize).status ≠ .ok := by
          rw [hend]
          decide
        rw [Machine.calls_halt hhalt]
        refine ⟨FollowsRules.cons hroom ?_ FollowsRules.nil, ?_, ?_⟩
        · intro _ d hd
          exact nomatch hd
        · intro d hd
          obtain rfl := List.mem_singleton.mp hd
          exact Or.inr hend
        · rw [List.map_singleton, List.flatten_singleton]
          show inp.take _ = inp
          rw [hall, List.take_length]

end Phases

/-! ## §3. The loop. -/

/-- **`gzip_compress`**, for any deflate that meets its contract and any content
below 2^32 bytes: the calls follow the rules, all are `Z_OK` but the last, which
is `Z_STREAM_END`, they take each byte of the content once, the loop ends, and it
returns all that they wrote. -/
theorem gzipCompress_returns (z : Zlib) (hz : Zlib.DeflateContract z.deflate)
    (stream : z.deflate.State) (hstart : z.deflate.start = some stream) (content : List UInt8)
    (hlen : content.length < 2 ^ 32) :
    ∃ cs last, z.deflate.calls tmpSize stream content = cs ++ [last]
      ∧ FollowsRules (cs ++ [last])
      ∧ (∀ c ∈ cs, c.result.status = .ok) ∧ last.result.status = .streamEnd
      ∧ ((cs ++ [last]).map Machine.Made.taken).flatten = content
      ∧ (∃ k, z.deflate.pumpFor tmpSize k stream content []
          = some (.streamEnd, ((cs ++ [last]).map fun c => c.result.produced).flatten))
      ∧ gzipCompress z content
        = some (((cs ++ [last]).map fun c => c.result.produced).flatten) := by
  obtain ⟨hrules, hstatus, htaken⟩ :=
    driven_calls hz stream content (Or.inl (hz.fresh hstart))
  obtain ⟨cs, last, hcalls, hok, hnot, hpump⟩ :=
    z.deflate.pump_calls tmpSize stream content []
  rw [List.nil_append, hcalls] at hpump
  rw [hcalls] at hrules hstatus htaken
  -- the last call is not `Z_OK`: with that the loop would have gone on
  have hlast : last.result.status = .streamEnd := by
    rcases hstatus last (List.mem_append_right _ List.mem_cons_self) with hbad | hend
    · exact absurd hbad hnot
    · exact hend
  rw [hlast] at hpump
  refine ⟨cs, last, hcalls, hrules, hok, hlast, htaken, ?_, ?_⟩
  · refine ⟨z.deflate.work stream content + 1, ?_⟩
    rw [z.deflate.pumpFor_eq _ _ _ _ _ (Nat.lt_succ_self _), hpump]
  · unfold gzipCompress
    rw [hstart, take_uInt hlen]
    simp only [hpump, ne_eq, not_true, if_false]

/-- A content of one byte. -/
theorem gzipCompress_returns_oneByte :
    ∃ cs last, fixedZlib.deflate.calls tmpSize (OneShot.reading []) [1]
        = cs ++ [last]
      ∧ FollowsRules (cs ++ [last])
      ∧ (∀ c ∈ cs, c.result.status = .ok) ∧ last.result.status = .streamEnd
      ∧ ((cs ++ [last]).map Machine.Made.taken).flatten = [1]
      ∧ (∃ k, fixedZlib.deflate.pumpFor tmpSize k (OneShot.reading []) [1] []
          = some (.streamEnd, ((cs ++ [last]).map fun c => c.result.produced).flatten))
      ∧ gzipCompress fixedZlib [1]
        = some (((cs ++ [last]).map fun c => c.result.produced).flatten) :=
  gzipCompress_returns fixedZlib FixedZlib.deflateContract (OneShot.reading []) rfl [1] (by decide)

end Bancho.BanchoPacket
