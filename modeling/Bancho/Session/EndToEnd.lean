/-
  Bancho.Session.EndToEnd
  ───────────────────────
  From `enqueue` to `Event::Packet`.  A session writes serialized packets, its
  socket takes the bytes in chunks, and a session at the other end reads them in
  pieces of its own:

      packets ─ enqueue ─▸ queue ─ async_write ─▸ socket ─ reads ─▸ packets

  All that is assumed of the connection between the two is that the bytes read are
  first bytes of those sent.  The socket of the writer may be closed at any time.
-/
import Bancho.Reader.Decomposition
import Bancho.Writer.Completion

namespace Bancho.Session

open BanchoPacket Framing Transition Reader

section Received

variable {z : Zlib} {rs : List Reader.Action} {r : Reader.Config}

/-- What a reader has delivered are the first packets of what it drains. -/
theorem delivered_initial (hg : z.AcceptsOnlyGzip) (hr : (Reader.system z).run rs = some r) :
    packetsOf r.events <+: ((wireFramer z).drain none (bytesRead rs)).frames := by
  have hdrained := (reachable_parsed hg hr).drained
  rw [received_run hr] at hdrained
  rw [hdrained]
  exact List.prefix_append _ _

/-- While its read is armed it has delivered all of them, and keeps the rest. -/
theorem delivered_reading (hg : z.AcceptsOnlyGzip) (hr : (Reader.system z).run rs = some r)
    (hphase : r.phase = .reading) :
    (wireFramer z).drain none (bytesRead rs)
      = ⟨packetsOf r.events, r.state.legacyHeader, r.state.packetStream, false⟩ := by
  have hparsed := reachable_parsed hg hr
  have hdrained := hparsed.drained
  rw [received_run hr, outcome_more (hparsed.armed hphase)] at hdrained
  rw [hdrained]
  show Outcome.mk (packetsOf r.events ++ []) _ _ _ = _
  rw [List.append_nil]

/-- It disconnects only for an `Invalid` or a read error. -/
theorem open_of_not_bad (hg : z.AcceptsOnlyGzip) (hr : (Reader.system z).run rs = some r)
    (hbad : ((wireFramer z).drain none (bytesRead rs)).bad = false) (hread : .readError ∉ rs) :
    .disconnect ∉ r.events := by
  have hparsed := reachable_parsed hg hr
  have hdrained := hparsed.drained
  rw [received_run hr] at hdrained
  have hended := (reachable_framed hr).2.1
  refine hended.1 fun hclosed => ?_
  rcases hparsed.closed hclosed with hinvalid | ⟨-, herror⟩
  · rw [hdrained, outcome_bad hinvalid] at hbad
    exact nomatch hbad
  · exact hread herror

end Received

/-- **A reader of serialized packets**, wherever the stream is cut. -/
theorem reader_serialized {z : Zlib} (hz : z.InflateInvertsDeflate) (hg : z.AcceptsOnlyGzip)
    {l : Bool} {msgs : List Outgoing} {wire : List (List UInt8)}
    (hwire : List.Forall₂ (Serialized z l) msgs wire) {rs : List Reader.Action}
    {r : Reader.Config} (hr : (Reader.system z).run rs = some r)
    (hcut : bytesRead rs <+: wire.flatten) :
    packetsOf r.events <+: msgs.map (Outgoing.received l)
      ∧ (.readError ∉ rs → .disconnect ∉ r.events)
      ∧ (r.phase = .reading → ∃ k, k ≤ msgs.length
          ∧ packetsOf r.events = (msgs.take k).map (Outgoing.received l)
          ∧ ((wire.take k).flatten).length ≤ (bytesRead rs).length
          ∧ (k < msgs.length → (bytesRead rs).length < ((wire.take (k + 1)).flatten).length))
      ∧ (r.phase = .reading → bytesRead rs = wire.flatten →
          packetsOf r.events = msgs.map (Outgoing.received l) ∧ r.state.packetStream = []) := by
  obtain ⟨k, hk, hframes, hbad, hlow, hhigh⟩ := drain_serialized_cut hz hg hwire hcut
  refine ⟨?_, open_of_not_bad hg hr hbad, ?_, ?_⟩
  · refine (delivered_initial hg hr).trans ?_
    rw [hframes]
    exact (List.take_prefix k msgs).map _
  · intro hphase
    rw [delivered_reading hg hr hphase] at hframes
    exact ⟨k, hk, hframes, hlow, hhigh⟩
  · intro hphase hall
    have hend := drain_serialized hz hg hwire
    rw [← hall, delivered_reading hg hr hphase] at hend
    obtain ⟨hpackets, -, hrest, -⟩ := Outcome.mk.inj hend
    exact ⟨hpackets, hrest⟩

/-- **End to end.**  Whenever a session has written serialized packets chunk by
chunk, enqueuing nothing after an error, and another has read some of the bytes:
the second has delivered the first packets of the first one, in order, and does
not disconnect unless a read fails.  With its read armed it has delivered exactly
those whose frames have arrived; and when the writer has come to its end without
an error and every byte was read, all of them, with nothing left over. -/
theorem end_to_end (z : Zlib) (hz : z.InflateInvertsDeflate) (hg : z.AcceptsOnlyGzip) (l : Bool)
    (ls : List AsyncWrite.Label) (t : AsyncWrite.Config)
    (h : AsyncWrite.system.run ls = some t)
    (hwhole : AsyncWrite.system.Along AsyncWrite.EnqueuesWhole AsyncWrite.system.init ls)
    (msgs : List Outgoing)
    (hmsgs : List.Forall₂ (Serialized z l) msgs (AsyncWrite.enqueuedOf ls))
    (rs : List Reader.Action) (r : Reader.Config) (hr : (Reader.system z).run rs = some r)
    (hbytes : bytesRead rs <+: t.socketBytes) :
    packetsOf r.events <+: msgs.map (Outgoing.received l)
      ∧ (.readError ∉ rs → .disconnect ∉ r.events)
      ∧ (r.phase = .reading → ∃ k, k ≤ msgs.length
          ∧ packetsOf r.events = (msgs.take k).map (Outgoing.received l)
          ∧ (((AsyncWrite.enqueuedOf ls).take k).flatten).length ≤ (bytesRead rs).length
          ∧ (k < msgs.length → (bytesRead rs).length
              < (((AsyncWrite.enqueuedOf ls).take (k + 1)).flatten).length))
      ∧ (r.phase = .reading → t.ops = [] → AsyncWrite.NoErrors t → bytesRead rs = t.socketBytes →
          packetsOf r.events = msgs.map (Outgoing.received l) ∧ r.state.packetStream = []) := by
  have hcut := hbytes.trans (AsyncWrite.socketBytes_initial h hwhole)
  obtain ⟨hinitial, hopen, hreading, hcomplete⟩ := reader_serialized hz hg hmsgs hr hcut
  refine ⟨hinitial, hopen, hreading, ?_⟩
  intro hphase hops hgood hread
  -- the writer has sent everything that was enqueued
  exact hcomplete hphase (hread.trans (AsyncWrite.flushed_idle h hops hgood).2)

/-- One packet, taken by the socket in two parts, and read at once. -/
def sentInParts : List AsyncWrite.Label :=
  [.action (.enqueue [1, 0, 0, 2, 0, 0, 0, 8, 9]), .action (.send 0 3), .action (.resume 0),
    .action (.send 0 6), .action (.resume 0)]

def afterSentInParts : AsyncWrite.Config where
  ended := [⟨[1, 0, 0, 2, 0, 0, 0, 8, 9], false, 9⟩]
  socketBytes := [1, 0, 0, 2, 0, 0, 0, 8, 9]

theorem along_sentInParts :
    AsyncWrite.system.Along AsyncWrite.EnqueuesWhole AsyncWrite.system.init sentInParts := by
  have hother : ∀ {t : AsyncWrite.Config} {l : AsyncWrite.Label},
      l.completes = true → AsyncWrite.EnqueuesWhole t l := by
    intro t l hl data hdata
    subst hdata
    exact nomatch hl
  exact ⟨fun _ _ => AsyncWrite.noErrors_init, fun _ _ => ⟨hother rfl, fun _ _ =>
    ⟨hother rfl, fun _ _ => ⟨hother rfl, fun _ _ => ⟨hother rfl, fun _ _ => trivial⟩⟩⟩⟩⟩

theorem end_to_end_sentInParts :
    packetsOf afterTwoBytes.events = [⟨1, false, [8, 9]⟩]
      ∧ afterTwoBytes.state.packetStream = [] := by
  have hpacket : Serialized fixedZlib false ⟨1, [8, 9], false⟩ [1, 0, 0, 2, 0, 0, 0, 8, 9] :=
    ⟨by decide, by decide +kernel⟩
  have hall := end_to_end fixedZlib FixedZlib.inflateInvertsDeflate FixedZlib.acceptsOnlyGzip false
    sentInParts afterSentInParts (by decide) along_sentInParts [⟨1, [8, 9], false⟩]
    (.cons hpacket .nil) twoBytes afterTwoBytes run_twoBytes (List.prefix_refl _)
  refine hall.2.2.2 rfl rfl ?_ rfl
  intro w hw
  obtain rfl := List.mem_singleton.mp hw
  rfl

end Bancho.Session
