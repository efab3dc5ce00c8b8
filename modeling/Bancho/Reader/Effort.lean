/-
  Bancho.Reader.Effort
  ────────────────────
  What a whole session costs, in calls of `consume_packet_stream`.  Every read is
  paid for by one call that finds nothing to deliver, every packet by one that
  does, and there are no others:

      calls  +  1 inside the handler  =  packets  +  reads

  A packet takes a header's worth of bytes at least, so the calls are bounded by
  what the client sent, however it sent it (`calls_account`).
-/
import Bancho.Reader.Invariants

namespace Bancho.Reader

open BanchoPacket Session Transition

/-- The calls of `consume_packet_stream` among some actions. -/
def callsIn (as : List Action) : Nat :=
  as.countP fun
    | .consume => true
    | _ => false

theorem callsIn_concat (as : List Action) (a : Action) :
    callsIn (as ++ [a]) = callsIn as + callsIn [a] := List.countP_append

/-- The handler owes the call that ends its loop. -/
def Config.owed (c : Config) : Nat := if c.phase = .draining then 1 else 0

/-- What the calls were for, and the bytes that paid for the packets. -/
structure Account (as : List Action) (c : Config) : Prop where
  calls : callsIn as + c.owed = (packetsOf c.events).length + (readsIn as).length
  bytes : (packetsOf c.events).length * 6 + c.state.packetStream.length ≤ c.received.length

theorem account_took {z : Zlib} {as : List Action} {c c' : Config} {a : Action}
    (h : Took z c a c') (hi : Account as c) : Account (as ++ [a]) c' := by
  obtain ⟨hcalls, hbytes⟩ := hi
  unfold Config.owed at hcalls
  cases h with
  | read r hphase =>
      rw [if_neg (by rw [hphase]; decide)] at hcalls
      constructor
      · -- one more read, and the loop is to be ended
        rw [callsIn_concat, readsIn_concat, List.length_append]
        show callsIn as + 0 + 1 = (packetsOf c.events).length + ((readsIn as).length + 1)
        omega
      · show _ + (c.state.packetStream ++ r.bytes).length ≤ (c.received ++ r.bytes).length
        rw [List.length_append, List.length_append]
        have hsame : packetsOf (c.withRead r).events = packetsOf c.events := rfl
        rw [hsame]
        omega
  | readError hphase =>
      rw [if_neg (by rw [hphase]; decide)] at hcalls
      constructor
      · rw [callsIn_concat, readsIn_concat, packetsOf_disconnected]
        show callsIn as + 0 + 0 = (packetsOf c.events).length + (readsIn as ++ []).length
        rw [List.append_nil]
        exact hcalls
      · rw [packetsOf_disconnected]
        exact hbytes
  | more hphase _ =>
      rw [if_pos hphase] at hcalls
      refine ⟨?_, hbytes⟩
      rw [callsIn_concat, readsIn_concat]
      show callsIn as + 1 + 0 = (packetsOf c.events).length + (readsIn as ++ []).length
      rw [List.append_nil]
      exact hcalls
  | bad hphase _ =>
      rw [if_pos hphase] at hcalls
      constructor
      · rw [callsIn_concat, readsIn_concat, packetsOf_disconnected]
        show callsIn as + 1 + 0 = (packetsOf c.events).length + (readsIn as ++ []).length
        rw [List.append_nil]
        exact hcalls
      · rw [packetsOf_disconnected]
        exact hbytes
  | frame p n l hphase _ _ hparse =>
      rw [if_pos hphase] at hcalls
      have howed : (c.taken p n (some l)).owed = 1 := if_pos hphase
      obtain ⟨hheader, hstream⟩ := consumedBytes_bounds hparse
      have hsix := (headerSize_bounds l).1
      constructor
      · rw [callsIn_concat, readsIn_concat, packetsOf_taken, howed, List.length_append]
        show callsIn as + 1 + 1 = (packetsOf c.events).length + 1 + (readsIn as ++ []).length
        rw [List.append_nil]
        omega
      · -- the frame that was taken is a header at least
        rw [packetsOf_taken, List.length_append]
        show ((packetsOf c.events).length + 1) * 6 + (c.state.packetStream.drop n).length
          ≤ c.received.length
        rw [List.length_drop]
        omega

theorem reachable_account {z : Zlib} {as : List Action} {c : Config}
    (h : (system z).run as = some c) : Account as c :=
  System.runFrom_induction (P := Account) ⟨rfl, Nat.le_refl _⟩
    (fun _ _ _ _ hi hs => account_took (step_took hs) hi) h

/-- The calls that the handler may still make, before its loop ends. -/
def Config.callsLeft (c : Config) : Nat :=
  if c.phase = .draining then c.state.packetStream.length / 6 + 1 else 0

/-- **Each call brings the loop nearer to its end.** -/
theorem callsLeft_took {z : Zlib} {c c' : Config} {a : Action} (ha : a = .consume)
    (h : Took z c a c') : c'.callsLeft < c.callsLeft := by
  unfold Config.callsLeft
  cases h with
  | read r _ | readError _ => exact nomatch ha
  | more hphase _ | bad hphase _ =>
      rw [if_pos hphase]
      exact Nat.succ_pos _
  | frame p n l hphase _ _ hparse =>
      have hsame : (c.taken p n (some l)).phase = .draining := hphase
      obtain ⟨hheader, hstream⟩ := consumedBytes_bounds hparse
      have hsix := (headerSize_bounds l).1
      rw [if_pos hphase, if_pos hsame]
      show (c.state.packetStream.drop n).length / 6 + 1 < _
      rw [List.length_drop]
      omega

/-- The loop can always go on. -/
theorem exists_consume {z : Zlib} {c : Config} (hphase : c.phase = .draining) :
    ∃ c', (system z).step c .consume = some c' := by
  rw [step_consume, if_pos hphase]
  cases wireAnswer z c.state.legacyHeader c.state.packetStream with
  | more => exact ⟨_, rfl⟩
  | bad => exact ⟨_, rfl⟩
  | frame p n m => exact ⟨_, rfl⟩

/-- There are never more of them than `packet_stream` has room for. -/
theorem callsLeft_le (c : Config) : c.callsLeft ≤ c.state.packetStream.length / 6 + 1 := by
  unfold Config.callsLeft
  split
  · exact Nat.le_refl _
  · exact Nat.zero_le _

/-- **The calls of a session.**  In every reachable state the calls made, and the
one the handler owes if its loop is running, are as many as the packets delivered
and the reads together, with six bytes received at least for each packet.  The
loop can always go on, and does so once for each six bytes of `packet_stream` at
most, and once more. -/
theorem calls_account (z : Zlib) (as : List Action) (c : Config)
    (h : (system z).run as = some c) :
    callsIn as + (if c.phase = .draining then 1 else 0)
        = (packetsOf c.events).length + (readsIn as).length
      ∧ callsIn as ≤ (bytesRead as).length / 6 + (readsIn as).length
      ∧ (c.phase = .draining → ∃ c', (system z).step c .consume = some c')
      ∧ ∀ n c', (system z).runFrom c (List.replicate n .consume) = some c' →
          n ≤ c.state.packetStream.length / 6 + 1 := by
  obtain ⟨hcalls, hbytes⟩ := reachable_account h
  have hreceived := received_run h
  refine ⟨hcalls, ?_, exists_consume, ?_⟩
  · rw [← hreceived]
    omega
  · intro n c' hrun
    have hmeasure := System.runFrom_measure (I := fun _ => True) (P := fun a => a = Action.consume)
      (m := Config.callsLeft) (fun _ _ _ _ ha hs => ⟨trivial, callsLeft_took ha (step_took hs)⟩)
      trivial (fun a ha => List.eq_of_mem_replicate ha) hrun
    rw [List.length_replicate] at hmeasure
    have hleft := callsLeft_le c
    omega

/-- Nine bytes in one read: one packet, and the call that stops. -/
theorem calls_account_twoBytes : callsIn twoBytes + 0 = 1 + 1 ∧ callsIn twoBytes ≤ 9 / 6 + 1 := by
  have haccount := calls_account fixedZlib twoBytes afterTwoBytes run_twoBytes
  exact ⟨haccount.1, haccount.2.1⟩

end Bancho.Reader
