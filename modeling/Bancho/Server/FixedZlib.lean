/-
  Bancho.Server.FixedZlib
  ───────────────────────
  One zlib, in full: gzip members with a single block of the fixed Huffman code.
  Its deflate writes literals only; its inflate takes any such block, matches
  included.  Every assumption of `Bancho.Server.Zlib` is proved of it, of whole
  runs (§2) and call by call (§3), so they are consistent together, and a
  statement about concrete bytes is settled on it.
-/
import Bancho.Library.GzipMember
import Bancho.Library.OneShot
import Bancho.Packet.GzipLoops

namespace Bancho

open Streaming BanchoPacket

/-- The decoder takes a member off the front of its input. -/
def memberDecoder : OneShot.Coder Flush UInt8 UInt8 where
  complete _ s := Gzip.decodeMember s
  bound s := match Gzip.decodeMember s with
    | none => 0
    | some (data, _) => data.length
  output_le := by
    intro _ s o r h
    rw [h]

/-- The encoder writes its member once the input is finished. -/
def memberEncoder : OneShot.Coder Flush UInt8 UInt8 where
  complete f s := if f = .finish then some (Gzip.encodeMember s, []) else none
  bound s := (Gzip.encodeMember s).length
  output_le := by
    intro f s o r h
    split at h
    next =>
      obtain ⟨rfl, -⟩ := Prod.mk.inj (Option.some.inj h)
      exact Nat.le_refl _
    next => exact nomatch h

def fixedZlib : Zlib :=
  ⟨OneShot.machine Zlib.inflateFlush memberDecoder,
    OneShot.machine Zlib.deflateFlush memberEncoder⟩

namespace FixedZlib

/-! ## §1. Its runs. -/

/-- A run of inflate is the member decoder. -/
theorem inflates_cases {payload out rest : List UInt8} {st : Status}
    (h : fixedZlib.Inflates payload out st rest) :
    (st = .streamEnd ∧ Gzip.decodeMember payload = some (out, rest))
      ∨ (st = .bufError ∧ Gzip.decodeMember payload = none) := by
  obtain ⟨s, hs, hrun⟩ := h
  obtain rfl : OneShot.reading [] = s := Option.some.inj hs
  cases hd : Gzip.decodeMember payload with
  | some x =>
      obtain ⟨data, r⟩ := x
      have hcomplete : memberDecoder.complete (Zlib.inflateFlush payload) ([] ++ payload)
          = some (data, r) := hd
      obtain ⟨hend, hout, hrest⟩ := OneShot.run_reading_complete hcomplete hrun
      obtain ⟨member, hmember, -⟩ := Gzip.decodeMember_self hd
      have hleft : payload.drop (payload.length - r.length) = r := by
        rw [hmember, List.length_append, Nat.add_sub_cancel, List.drop_left]
      left
      rw [hout, hrest, hleft]
      exact ⟨hend, rfl⟩
  | none =>
      right
      refine ⟨?_, rfl⟩
      have hnone : memberDecoder.complete (Zlib.inflateFlush payload) ([] ++ payload) = none := hd
      by_cases hp : payload = []
      · subst hp
        exact (OneShot.run_reading_stuck hnone hrun).1
      · exact (OneShot.run_reading_stuck hnone (OneShot.run_reading_wait hp hnone hrun)).1

/-- A run of deflate is the member encoder. -/
theorem deflate_run {data out rest : List UInt8} {st : Status} {s : fixedZlib.deflate.State}
    (hs : fixedZlib.deflate.start = some s)
    (hrun : fixedZlib.deflate.Run s data out st rest) :
    st = .streamEnd ∧ out = Gzip.encodeMember data := by
  obtain rfl : OneShot.reading [] = s := Option.some.inj hs
  have hfinish : ∀ seen : List UInt8,
      memberEncoder.complete (Zlib.deflateFlush []) (seen ++ [])
        = some (Gzip.encodeMember (seen ++ []), []) := fun _ => rfl
  by_cases hd : data = []
  · subst hd
    obtain ⟨hend, hout, -⟩ := OneShot.run_reading_complete (hfinish []) hrun
    exact ⟨hend, hout⟩
  · -- the content is taken in without flushing, then finished
    have hnone : memberEncoder.complete (Zlib.deflateFlush data) ([] ++ data) = none := by
      rw [Zlib.deflateFlush_of_ne_nil hd]
      rfl
    have hwait := OneShot.run_reading_wait hd hnone hrun
    obtain ⟨hend, hout, -⟩ := OneShot.run_reading_complete (hfinish data) hwait
    rw [List.append_nil] at hout
    exact ⟨hend, hout⟩

/-! ## §2. The assumptions hold. -/

theorem acceptsOnlyGzip : fixedZlib.AcceptsOnlyGzip := by
  intro payload out rest h
  rcases inflates_cases h with ⟨-, hd⟩ | ⟨hend, -⟩
  · exact Gzip.decodeMember_magic hd
  · exact nomatch hend

theorem inflateInvertsDeflate : fixedZlib.InflateInvertsDeflate := by
  intro data payload hlen h
  obtain ⟨s, rest, hs, hrun⟩ := h
  obtain ⟨-, rfl⟩ := deflate_run hs hrun
  refine ⟨rfl, ?_⟩
  intro out st rest hi
  have hdec := Gzip.decodeMember_encode data (Nat.lt_trans hlen (by decide)) []
  rw [List.append_nil] at hdec
  rcases inflates_cases hi with ⟨hend, hd⟩ | ⟨-, hd⟩
  · exact ⟨hend, (Prod.mk.inj (Option.some.inj (hd.symm.trans hdec))).1⟩
  · exact nomatch hd.symm.trans hdec

theorem expandsAtMost : fixedZlib.ExpandsAtMost 1032 := by
  intro payload out rest h
  rcases inflates_cases h with ⟨-, hd⟩ | ⟨hend, -⟩
  · exact Gzip.decodeMember_expand hd
  · exact nomatch hend

/-- A payload that is a member from its front is inflated. -/
theorem inflates_of_decode {payload out rest : List UInt8}
    (h : Gzip.decodeMember payload = some (out, rest)) :
    fixedZlib.Inflates payload out .streamEnd rest := by
  obtain ⟨out', st, rest', hrun⟩ := fixedZlib.inflate.exists_run
    (OneShot.reading []) payload
  have hi : fixedZlib.Inflates payload out' st rest' := ⟨_, rfl, hrun⟩
  rcases inflates_cases hi with ⟨rfl, hd⟩ | ⟨-, hd⟩
  · obtain ⟨rfl, rfl⟩ := Prod.mk.inj (Option.some.inj (h.symm.trans hd))
    exact hi
  · exact nomatch h.symm.trans hd

theorem stopsAtMemberEnd : fixedZlib.StopsAtMemberEnd := by
  intro member out rest h
  rcases inflates_cases h with ⟨-, hd⟩ | ⟨hend, -⟩
  · obtain ⟨member', heq, hself⟩ := Gzip.decodeMember_self hd
    obtain rfl : member = member' := List.append_cancel_right heq
    have hdec := hself []
    rw [List.append_nil] at hdec
    exact inflates_of_decode hdec
  · exact nomatch hend

/-! ## §3. The contracts hold, call by call. -/

/-- The bytes are one member, and `data` is what it stands for. -/
def Member (member data : List UInt8) : Prop := Gzip.decodeMember member = some (data, [])

/-- A fresh inflate that can finish writes its output, room permitting. -/
theorem inflate_call {s : fixedZlib.inflate.State} (hs : fixedZlib.inflate.start = some s)
    {payload data rest : List UInt8} {room : Nat}
    (hd : Gzip.decodeMember payload = some (data, rest)) :
    fixedZlib.inflate.call s .noFlush payload room
      = OneShot.emit data (payload.length - rest.length) room := by
  obtain rfl : OneShot.reading [] = s := Option.some.inj hs
  have hcomplete : memberDecoder.complete .noFlush ([] ++ payload) = some (data, rest) := hd
  exact OneShot.call_complete hcomplete

/-- One that cannot finish waits, or is stuck. -/
theorem inflate_call_none {s : fixedZlib.inflate.State} (hs : fixedZlib.inflate.start = some s)
    {payload : List UInt8} {room : Nat} (hd : Gzip.decodeMember payload = none) :
    (fixedZlib.inflate.call s .noFlush payload room).status ≠ .streamEnd := by
  obtain rfl : OneShot.reading [] = s := Option.some.inj hs
  have hnone : memberDecoder.complete .noFlush ([] ++ payload) = none := hd
  have hcall : fixedZlib.inflate.call (OneShot.reading []) .noFlush payload room = _ :=
    OneShot.call_wait hnone
  rw [hcall]
  by_cases hp : payload = []
  · simp [hp]
  · simp [hp]

theorem decodesMembers : fixedZlib.DecodesMembers Member where
  reaches := by
    intro s member data rest room hs hmember hroom
    obtain ⟨bytes, hbytes, hself⟩ := Gzip.decodeMember_self hmember
    rw [List.append_nil] at hbytes
    subst hbytes
    rw [inflate_call hs (hself rest), OneShot.emit_fits (Nat.le_of_lt hroom)]
    refine ⟨rfl, ?_, rfl⟩
    show (member ++ rest).length - rest.length = member.length
    rw [List.length_append, Nat.add_sub_cancel]
  only := by
    intro s payload room hs hend
    cases hd : Gzip.decodeMember payload with
    | none => exact absurd hend (inflate_call_none hs hd)
    | some x =>
        obtain ⟨data, rest⟩ := x
        obtain ⟨member, hmember, hself⟩ := Gzip.decodeMember_self hd
        rw [inflate_call hs hd] at hend ⊢
        -- the end was reported, so the room was enough
        have hfits := OneShot.length_le_of_streamEnd hend
        rw [OneShot.emit_fits hfits]
        show Member (payload.take (payload.length - rest.length)) data
        have halone := hself []
        rw [List.append_nil] at halone
        rw [hmember, List.length_append, Nat.add_sub_cancel, List.take_left]
        exact halone

theorem ignoresDivision : fixedZlib.IgnoresDivision := by
  intro s payload out st rest room hs hrun hroom
  rcases inflates_cases ⟨s, hs, hrun⟩ with ⟨rfl, hd⟩ | ⟨rfl, hd⟩
  · have hbound : out.length ≤ room := by
      obtain rfl : OneShot.reading [] = s := Option.some.inj hs
      have hle : out.length ≤ memberDecoder.bound ([] ++ payload) :=
        memberDecoder.output_le (f := .noFlush) hd
      have hroom : memberDecoder.bound ([] ++ payload) < room := hroom
      omega
    rw [inflate_call hs hd, OneShot.emit_fits hbound]
    exact ⟨Iff.rfl, fun _ => rfl⟩
  · have hnot : (fixedZlib.inflate.call s .noFlush payload room).status ≠ .streamEnd :=
      inflate_call_none hs hd
    constructor
    · constructor
      · intro hend
        exact absurd hend hnot
      · intro hend
        exact nomatch hend
    · intro hend
      exact nomatch hend

/-- Where the encoder is: it finishes once it has a member to write. -/
def deflatePhase : OneShot UInt8 UInt8 → Zlib.DeflatePhase
  | .reading _ => .taking
  | .writing [] => .done
  | .writing (_ :: _) => .finishing 0

def deflatePending : OneShot UInt8 UInt8 → Nat
  | .reading _ => 0
  | .writing pending => pending.length

theorem reading_of_taking {s : OneShot UInt8 UInt8} (h : deflatePhase s = .taking) :
    ∃ seen, s = .reading seen := by
  cases s with
  | reading seen => exact ⟨seen, rfl⟩
  | writing pending => cases pending <;> exact nomatch h

/-- An encoder that is finishing has taken all its input. -/
theorem writing_of_finishing {s : OneShot UInt8 UInt8} {left : Nat}
    (h : deflatePhase s = .finishing left) : left = 0 ∧ ∃ pending, s = .writing pending := by
  cases s with
  | reading seen => exact nomatch h
  | writing pending =>
      cases pending with
      | nil => exact nomatch h
      | cons b bs => exact ⟨(Zlib.DeflatePhase.finishing.inj h).symm, _, rfl⟩

/-- What a call of an encoder that can finish reports. -/
theorem emit_finish {c : Call (OneShot UInt8 UInt8) UInt8} {data : List UInt8}
    {consumed room : Nat} (hc : c = OneShot.emit data consumed room) (hroom : 0 < room) :
    (c.status = .ok ∧ 0 < deflatePending c.next ∧ deflatePhase c.next = .finishing 0)
      ∨ (c.status = .streamEnd ∧ deflatePending c.next = 0 ∧ deflatePhase c.next = .done) := by
  by_cases hfits : data.length ≤ room
  · right
    rw [hc, OneShot.emit_fits hfits]
    exact ⟨rfl, rfl, rfl⟩
  · left
    have hleft : 0 < (data.drop room).length := by
      rw [List.length_drop]
      omega
    rw [hc]
    refine ⟨?_, hleft, ?_⟩
    · show OneShot.emitStatus data room = .ok
      unfold OneShot.emitStatus
      rw [if_neg hfits, if_pos hroom]
    · show deflatePhase (.writing (data.drop room)) = .finishing 0
      cases hdrop : data.drop room with
      | nil =>
          rw [hdrop] at hleft
          exact absurd hleft (Nat.lt_irrefl 0)
      | cons b bs => rfl

def deflateContract : Zlib.DeflateContract fixedZlib.deflate where
  phase := deflatePhase
  pending := deflatePending
  fresh := by
    intro s hs
    obtain rfl : OneShot.reading [] = s := Option.some.inj hs
    rfl
  noFlush := by
    intro s inp room hphase _ hwork
    obtain ⟨seen, rfl⟩ := reading_of_taking hphase
    have hinp : inp ≠ [] := by
      rcases hwork with hinp | hpending
      · exact hinp
      · exact absurd hpending (Nat.lt_irrefl 0)
    have hnone : memberEncoder.complete .noFlush (seen ++ inp) = none := rfl
    have hcall : fixedZlib.deflate.call (.reading seen) .noFlush inp room
        = ⟨if inp = [] then .bufError else .ok, inp.length, [], .reading (seen ++ inp)⟩ := by
      show OneShot.call memberEncoder (.reading seen) .noFlush inp room = _
      rw [OneShot.call_wait hnone]
      rfl
    rw [hcall]
    exact ⟨if_neg hinp, rfl⟩
  finish := by
    intro s inp room hphase hroom
    rcases hphase with htaking | hfinishing
    · -- the first `Z_FINISH`: the member of all the input is there to be written
      obtain ⟨seen, rfl⟩ := reading_of_taking htaking
      have hcomplete : memberEncoder.complete .finish (seen ++ inp)
          = some (Gzip.encodeMember (seen ++ inp), []) := rfl
      have hcall : fixedZlib.deflate.call (.reading seen) .finish inp room
          = OneShot.emit (Gzip.encodeMember (seen ++ inp)) (inp.length - 0) room :=
        OneShot.call_complete hcomplete
      have hconsumed : (fixedZlib.deflate.call (.reading seen) .finish inp room).consumed
          = inp.length := by
        rw [hcall]
        rfl
      rw [hconsumed, Nat.sub_self]
      rcases emit_finish hcall hroom with ⟨hok, hleft, hnext⟩ | ⟨hend, hleft, hnext⟩
      · exact Or.inl ⟨hok, hleft, hnext⟩
      · exact Or.inr ⟨hend, hleft, rfl, hnext⟩
    · -- a later one: more of it is written
      obtain ⟨hlen, pending, rfl⟩ := writing_of_finishing hfinishing
      obtain rfl : inp = [] := List.length_eq_zero_iff.mp hlen
      have hcall : fixedZlib.deflate.call (.writing pending) .finish [] room
          = OneShot.emit pending 0 room := rfl
      rcases emit_finish hcall hroom with ⟨hok, hleft, hnext⟩ | ⟨hend, hleft, hnext⟩
      · exact Or.inl ⟨hok, hleft, hnext⟩
      · exact Or.inr ⟨hend, hleft, rfl, hnext⟩

/-! ## §4. The two loops over it. -/

theorem gzipDecompress_eq {payload : List UInt8} (h : payload.length < 2 ^ 32) :
    gzipDecompress fixedZlib payload = (Gzip.decodeMember payload).map Prod.fst := by
  cases hd : Gzip.decodeMember payload with
  | some x =>
      apply gzipDecompress_of_runs rfl
      intro out st rest hi
      rw [take_uInt h] at hi
      rcases inflates_cases hi with ⟨hend, hd'⟩ | ⟨-, hd'⟩
      · exact ⟨hend, (congrArg Prod.fst (Option.some.inj (hd.symm.trans hd'))).symm⟩
      · exact nomatch hd.symm.trans hd'
  | none =>
      rw [Option.map_none, Option.eq_none_iff_forall_ne_some]
      intro content hc
      obtain ⟨rest, hi⟩ := gzipDecompress_some hc
      rw [take_uInt h] at hi
      rcases inflates_cases hi with ⟨-, hd'⟩ | ⟨hend, -⟩
      · exact nomatch hd.symm.trans hd'
      · exact nomatch hend

theorem gzipCompress_eq (content : List UInt8) :
    gzipCompress fixedZlib content
      = some (Gzip.encodeMember (content.take (uInt content.length))) :=
  gzipCompress_of_runs rfl fun _ _ _ _ hs hrun => deflate_run hs hrun

end FixedZlib

end Bancho
