/-
  Bancho.Reader.SessionLog
  ────────────────────────
  What the log of a session tells: each read with its length and first 64 bytes,
  each packet with its id and size, and the disconnect, in order.  The lines of
  different things differ, also where `remote_endpoint` failed for some of them, so
  two sessions of one client with the same log did all this alike (`session_log`).
-/
import Bancho.Reader.Invariants
import Bancho.Reader.RawRead
import Bancho.Server.SessionLog

namespace Bancho.Logger

open Session Transition

/-! ## §1. What a line tells. -/

inductive Entry where
  | connect
  | read (length : Nat) (bytes : List UInt8)
  | packet (id : UInt16) (size : Nat)
  | disconnect
  deriving DecidableEq

/-- What `remote_endpoint` finds of the address `e`. -/
def Known (e : List Char) (endpoint : Option (List Char)) : Prop :=
  endpoint = none ∨ endpoint = some e

/-- The line of a session of the client at `e`, and what it tells. -/
inductive Tells (e : List Char) : Entry → Stream × List Char → Prop
  | connect {endpoint : Option (List Char)} {line : Stream × List Char}
      (hknown : Known e endpoint) (hline : Logger.connect endpoint = some line) :
      Tells e .connect line
  | read {endpoint : Option (List Char)} {line : Stream × List Char} (buf : List UInt8) (n : Nat)
      (hn : n ≤ buf.length) (hknown : Known e endpoint)
      (hline : logRawRead endpoint buf n = some line) : Tells e (.read n (shown buf n)) line
  | packet {endpoint : Option (List Char)} {line : Stream × List Char} (p : BanchoPacket.Packet)
      (hknown : Known e endpoint) (hline : Logger.packet endpoint p = some line) :
      Tells e (.packet p.id p.content.length) line
  | disconnect {endpoint : Option (List Char)} {line : Stream × List Char}
      (hknown : Known e endpoint) (hline : Logger.disconnect endpoint = some line) :
      Tells e .disconnect line

/-- The line of a packet, between its numbers. -/
def beside : Option (List Char) → List Char
  | some endpoint => "from ".toList ++ endpoint ++ " (".toList
  | none => ['(']

theorem packet_eq (endpoint : Option (List Char)) (p : BanchoPacket.Packet) :
    packet endpoint p
      = some (.cout, "Packet ".toList
          ++ (Nat.toDigits 10 p.id.toNat ++ ' ' :: (beside endpoint
            ++ (Nat.toDigits 10 p.content.length ++ ' ' :: "bytes)".toList))) ++ ['\n']) := by
  have hfrom : " from ".toList = ' ' :: "from ".toList := by decide
  have hopen : " (".toList = [' ', '('] := by decide
  have hbytes : " bytes)".toList = ' ' :: "bytes)".toList := by decide
  cases endpoint with
  | none =>
      refine log_number rfl (by decide) p.id.toNat ?_
      rw [hopen, hbytes]
      simp only [List.flatten_cons, List.flatten_nil, List.append_nil]
      rfl
  | some e =>
      refine log_number rfl (by decide) p.id.toNat ?_
      rw [hfrom, hopen, hbytes]
      simp only [List.flatten_cons, List.flatten_nil, List.append_nil]
      unfold beside
      rw [hopen, List.append_assoc, List.append_assoc]
      rfl

/-- The numbers of a packet are in its line, wherever the endpoint was found. -/
theorem packet_inj {e : List Char} {x y : Option (List Char)} (hx : Known e x) (hy : Known e y)
    {p q : BanchoPacket.Packet} (h : packet x p = packet y q) :
    p.id = q.id ∧ p.content.length = q.content.length := by
  rw [packet_eq, packet_eq, Option.some.injEq, Prod.mk.injEq] at h
  obtain ⟨hid, hrest⟩ := line_inj h.2
  refine ⟨UInt16.toNat_inj.mp hid, ?_⟩
  have hfrom : ∀ u v w : List Char, "from ".toList ++ e ++ u ++ v ≠ ['('] ++ w := by
    intro u v w heq
    exact absurd (List.cons.inj heq).1 (by decide)
  rcases hx with rfl | rfl <;> rcases hy with rfl | rfl
  · exact (digits_append_inj (List.append_cancel_left hrest)).1
  · exact absurd hrest.symm (hfrom _ _ _)
  · exact absurd hrest (hfrom _ _ _)
  · exact (digits_append_inj (List.append_cancel_left hrest)).1

theorem read_inj {e : List Char} {x y : Option (List Char)} (hx : Known e x) (hy : Known e y)
    {buf buf' : List UInt8} {n n' : Nat} (hn : n ≤ buf.length) (hn' : n' ≤ buf'.length)
    (h : logRawRead x buf n = logRawRead y buf' n') : n = n' ∧ shown buf n = shown buf' n' := by
  have hline := h
  rw [logRawRead_eq, logRawRead_eq, Option.some.injEq, Prod.mk.injEq] at hline
  obtain ⟨-, hrest⟩ := line_inj hline.2
  have hfrom : ∀ u v : List Char, between (some e) ++ u ≠ between none ++ v := by
    intro u v heq
    have hbytes : "bytes from ".toList = ['b', 'y', 't', 'e', 's'] ++ ' ' :: "from ".toList := by
      decide
    have hcolon : "bytes: ".toList = ['b', 'y', 't', 'e', 's'] ++ [':', ' '] := by decide
    unfold between at heq
    rw [hbytes, hcolon, List.append_assoc, List.append_assoc, List.append_assoc,
      List.append_assoc] at heq
    exact absurd (List.cons.inj (List.append_cancel_left heq)).1 (by decide)
  rcases hx with rfl | rfl <;> rcases hy with rfl | rfl
  · exact shown_of_line hn hn' h
  · exact absurd hrest.symm (hfrom _ _)
  · exact absurd hrest (hfrom _ _)
  · exact shown_of_line hn hn' h

/-- What tells the lines of different things apart. -/
def mark (text : List Char) : Char :=
  if text.head? = some 'C' then text.getD 7 ' ' else text.headD ' '

def Entry.mark : Entry → Char
  | .connect => 'c'
  | .read _ _ => 'R'
  | .packet _ _ => 'P'
  | .disconnect => 'd'

theorem tells_mark {e : List Char} {x : Entry} {line : Stream × List Char} (h : Tells e x line) :
    mark line.2 = x.mark := by
  cases h with
  | connect hknown hline =>
      have hword : "Client connected ".toList = "Client ".toList ++ 'c' :: "onnected ".toList := by
        decide
      rcases hknown with rfl | rfl
      · exact nomatch hline
      · unfold Logger.connect log at hline
        rw [hword] at hline
        obtain rfl := Option.some.inj hline
        rfl
  | read buf n hn hknown hline =>
      rw [logRawRead_eq] at hline
      obtain rfl := Option.some.inj hline
      rfl
  | packet p hknown hline =>
      rw [packet_eq] at hline
      obtain rfl := Option.some.inj hline
      rfl
  | disconnect hknown hline =>
      rcases hknown with rfl | rfl
      · obtain rfl := Option.some.inj hline
        rfl
      · obtain rfl := Option.some.inj hline
        rfl

/-- **A line tells one thing.** -/
theorem tells_unique {e : List Char} {x y : Entry} {line : Stream × List Char}
    (hx : Tells e x line) (hy : Tells e y line) : x = y := by
  have hmark : x.mark = y.mark := (tells_mark hx).symm.trans (tells_mark hy)
  cases hx with
  | connect _ _ =>
      cases hy with
      | connect _ _ => rfl
      | read _ _ _ _ _ | packet _ _ _ | disconnect _ _ => exact absurd hmark (by simp [Entry.mark])
  | read buf n hn hknown hline =>
      cases hy with
      | read buf' n' hn' hknown' hline' =>
          obtain ⟨rfl, hshown⟩ := read_inj hknown hknown' hn hn' (hline.trans hline'.symm)
          rw [hshown]
      | connect _ _ | packet _ _ _ | disconnect _ _ =>
          exact absurd hmark (by simp [Entry.mark])
  | packet p hknown hline =>
      cases hy with
      | packet q hknown' hline' =>
          obtain ⟨hid, hsize⟩ := packet_inj hknown hknown' (hline.trans hline'.symm)
          rw [hid, hsize]
      | connect _ _ | read _ _ _ _ _ | disconnect _ _ =>
          exact absurd hmark (by simp [Entry.mark])
  | disconnect _ _ =>
      cases hy with
      | disconnect _ _ => rfl
      | connect _ _ | read _ _ _ _ _ | packet _ _ _ => exact absurd hmark (by simp [Entry.mark])

/-! ## §2. What the log of a session tells. -/

def Entry.asRead : Entry → Option (Nat × List UInt8)
  | .read length bytes => some (length, bytes)
  | _ => none

def Entry.asPacket : Entry → Option (UInt16 × Nat)
  | .packet id size => some (id, size)
  | _ => none

/-- Of a read, its length and its first 64 bytes. -/
def seen (r : ReadBytes) : Nat × List UInt8 := (r.bytes.length, r.bytes.take 64)

/-- Of a packet, its id and its size. -/
def named (p : BanchoPacket.Packet) : UInt16 × Nat := (p.id, p.content.length)

/-- The actions without what was found of the endpoint. -/
def actionsOf (as : List Action) : List Reader.Action := as.map Action.action

/-- The lines logged tell `xs`, which is what the session did. -/
structure Told (e : List Char) (as : List Action) (c : Logged) (xs : List Entry) : Prop where
  lines : List.Forall₂ (Tells e) xs c.lines
  reads : xs.filterMap Entry.asRead = (Reader.readsIn (actionsOf as)).map seen
  packets : xs.filterMap Entry.asPacket = (packetsOf c.session.events).map named
  gone : .disconnect ∈ xs ↔ .disconnect ∈ c.session.events

theorem told_start {e : List Char} {endpoint : Option (List Char)} (hknown : Known e endpoint)
    (readBuf : List UInt8) : ∃ xs, Told e [] (start endpoint readBuf) xs := by
  rcases hknown with rfl | rfl
  · refine ⟨[], .nil, rfl, rfl, ?_⟩
    show Entry.disconnect ∈ ([] : List Entry) ↔ Event.disconnect ∈ [Event.connect]
    simp
  · refine ⟨[.connect], .cons (.connect (.inr rfl) rfl) .nil, rfl, rfl, ?_⟩
    show Entry.disconnect ∈ [Entry.connect] ↔ Event.disconnect ∈ [Event.connect]
    simp

/-- What one step logged, `ys` in the lines `ls`. -/
theorem Told.push {e : List Char} {as : List Action} {c c' : Logged} {xs : List Entry}
    (hi : Told e as c xs) {a : Action} {raised : List Event} {ys : List Entry}
    {ls : List (Stream × List Char)} (hevents : c'.session.events = c.session.events ++ raised)
    (hlines : c'.lines = c.lines ++ ls) (hys : List.Forall₂ (Tells e) ys ls)
    (hreads : ys.filterMap Entry.asRead = (Reader.readsIn [a.action]).map seen)
    (hpackets : ys.filterMap Entry.asPacket = (packetsOf raised).map named)
    (hgone : .disconnect ∈ ys ↔ .disconnect ∈ raised) : Told e (as ++ [a]) c' (xs ++ ys) := by
  refine ⟨?_, ?_, ?_, ?_⟩
  · rw [hlines]
    exact List.rel_append hi.lines hys
  · have hactions : actionsOf (as ++ [a]) = actionsOf as ++ [a.action] := List.map_append
    rw [hactions, Reader.readsIn_concat, List.filterMap_append, List.map_append, hi.reads, hreads]
  · rw [hevents, packetsOf_append, List.filterMap_append, List.map_append, hi.packets, hpackets]
  · rw [hevents, List.mem_append, List.mem_append, hi.gone, hgone]

/-- What a step that raised `raised` has logged. -/
theorem lines_raised {c : Logged} {s : Reader.Config} {raised : List Event}
    (h : s.events = c.session.events ++ raised) (found : Option (List Char)) :
    (s.events.drop c.session.events.length).filterMap (event found)
      = raised.filterMap (event found) := by
  rw [h, List.drop_left]

theorem disconnect_line (found : Option (List Char)) : ∃ line, disconnect found = some line := by
  cases found <;> exact ⟨_, rfl⟩

theorem shown_fill (readBuf : List UInt8) (r : ReadBytes) :
    shown (fill readBuf (.read r)) r.bytes.length = r.bytes.take 64 := by
  unfold shown fill
  rw [List.take_append_of_le_length (Nat.min_le_left _ _), Nat.min_comm, ← List.take_take,
    List.take_length]

/-- **Each step logs what it does.** -/
theorem told_step {z : Zlib} {e : List Char} {endpoint : Option (List Char)} {readBuf : List UInt8}
    {as : List Action} {c c' : Logged} {a : Action} {xs : List Entry} (hi : Told e as c xs)
    (hknown : Known e a.endpoint) (hstep : (system z endpoint readBuf).step c a = some c') :
    ∃ ys, Told e (as ++ [a]) c' ys := by
  obtain ⟨s, hs, rfl⟩ := Option.map_eq_some_iff.mp hstep
  obtain ⟨action, found⟩ := a
  have hknown : Known e found := hknown
  cases Reader.step_took hs with
  | read r _ =>
      have hnone : (c.session.withRead r).events = c.session.events ++ [] :=
        (List.append_nil _).symm
      have hn : r.bytes.length ≤ (fill c.readBuf (.read r)).length := by
        show _ ≤ (r.bytes ++ _).length
        rw [List.length_append]
        exact Nat.le_add_right _ _
      have hline := logRawRead_eq found (fill c.readBuf (.read r)) r.bytes.length
      refine ⟨_, hi.push hnone ?_ (.cons (.read _ _ hn hknown hline) .nil) ?_ rfl (by simp)⟩
      · show c.lines ++ (logRawRead found (fill c.readBuf (.read r)) r.bytes.length).toList ++ _ = _
        rw [lines_raised hnone, hline]
        exact List.append_nil _
      · show [(r.bytes.length, shown (fill c.readBuf (.read r)) r.bytes.length)] = [seen r]
        rw [shown_fill]
        rfl
  | more _ _ =>
      have hnone : c.session.rearmed.events = c.session.events ++ [] := (List.append_nil _).symm
      refine ⟨_, hi.push hnone ?_ .nil rfl rfl (by simp)⟩
      show c.lines ++ [] ++ _ = _
      rw [lines_raised hnone, List.append_nil]
      exact List.append_nil _
  | readError _ | bad _ _ =>
      have hone : c.session.disconnected.events = c.session.events ++ [.disconnect] := rfl
      obtain ⟨line, hline⟩ := disconnect_line found
      refine ⟨_, hi.push hone ?_ (.cons (.disconnect hknown hline) .nil) rfl rfl (by simp)⟩
      show c.lines ++ [] ++ _ = _
      rw [lines_raised hone, List.append_nil]
      show _ ++ [Event.disconnect].filterMap (event found) = _
      rw [List.filterMap_cons_some (show event found .disconnect = some line from hline)]
      rfl
  | frame p n l _ _ _ _ =>
      have hone : (c.session.taken p n (some l)).events = c.session.events ++ [.packet p] := rfl
      have hline := packet_eq found p
      refine ⟨_, hi.push hone ?_ (.cons (.packet p hknown hline) .nil) rfl rfl (by simp)⟩
      show c.lines ++ [] ++ _ = _
      rw [lines_raised hone, List.append_nil,
        List.filterMap_cons_some (show event found (.packet p) = some _ from hline)]
      rfl

theorem told_run {z : Zlib} {e : List Char} {endpoint : Option (List Char)} {readBuf : List UInt8}
    {as : List Action} {c : Logged} (h : (system z endpoint readBuf).run as = some c)
    (hstart : Known e endpoint) (hknown : ∀ a ∈ as, Known e a.endpoint) :
    ∃ xs, Told e as c xs := by
  have hall : (∀ a ∈ as, Known e a.endpoint) → ∃ xs, Told e as c xs := by
    refine System.runFrom_induction
      (P := fun as c => (∀ a ∈ as, Known e a.endpoint) → ∃ xs, Told e as c xs)
      (fun _ => told_start hstart readBuf) ?_ h
    intro as c a c' hi hstep hknown
    obtain ⟨hbefore, hlast⟩ := List.forall_mem_append.mp hknown
    obtain ⟨xs, htold⟩ := hi hbefore
    exact told_step htold (hlast a List.mem_cons_self) hstep
  exact hall hknown

/-- **Logging changes nothing.** -/
theorem run_logged {z : Zlib} {endpoint : Option (List Char)} {readBuf : List UInt8}
    {as : List Action} {c : Logged} (h : (system z endpoint readBuf).run as = some c) :
    (Reader.system z).run (actionsOf as) = some c.session := by
  refine System.runFrom_induction
    (P := fun as c => (Reader.system z).run (actionsOf as) = some c.session) rfl ?_ h
  intro as c a c' hi hstep
  obtain ⟨s, hs, rfl⟩ := Option.map_eq_some_iff.mp hstep
  have hactions : actionsOf (as ++ [a]) = actionsOf as ++ [a.action] := List.map_append
  rw [hactions]
  exact System.runFrom_concat.mpr ⟨c.session, hi, hs⟩

/-- **The log tells what a session did.**  Two sessions of the client at `e` that
logged the same lines, whenever `remote_endpoint` failed for either, read pieces of
the same lengths and the same first 64 bytes, delivered packets of the same ids and
sizes, each in the same order, and both disconnected or neither did.  And with the
log a session does what it does without. -/
theorem session_log (z z' : Zlib) (e : List Char) (x y : Option (List Char))
    (buf buf' : List UInt8) (as bs : List Action) (c d : Logged)
    (hc : (system z x buf).run as = some c) (hd : (system z' y buf').run bs = some d)
    (hx : Known e x) (hy : Known e y) (has : ∀ a ∈ as, Known e a.endpoint)
    (hbs : ∀ b ∈ bs, Known e b.endpoint) (hlines : c.lines = d.lines) :
    (Reader.system z).run (actionsOf as) = some c.session
      ∧ (Reader.readsIn (actionsOf as)).map seen = (Reader.readsIn (actionsOf bs)).map seen
      ∧ (packetsOf c.session.events).map named = (packetsOf d.session.events).map named
      ∧ (.disconnect ∈ c.session.events ↔ .disconnect ∈ d.session.events) := by
  obtain ⟨xs, hxs⟩ := told_run hc hx has
  obtain ⟨ys, hys⟩ := told_run hd hy hbs
  have hsame : xs = ys := by
    have hleft := hxs.lines
    rw [hlines] at hleft
    exact List.left_unique_forall₂' (R := Tells e) (fun _ _ _ h h' => tells_unique h h') hleft
      hys.lines
  subst hsame
  exact ⟨run_logged hc, hxs.reads.symm.trans hys.reads, hxs.packets.symm.trans hys.packets,
    hxs.gone.symm.trans hys.gone⟩

/-- The client at `h` sends a packet; for its line the endpoint is not found. -/
def logged : List Action :=
  [⟨.read ⟨[4, 0, 0, 1, 0, 0, 0, 9], Nat.succ_pos _, Nat.le_of_ble_eq_true rfl⟩, some ['h']⟩,
    ⟨.consume, none⟩, ⟨.consume, some ['h']⟩]

theorem known_logged : ∀ a ∈ logged, Known ['h'] a.endpoint := by
  intro a ha
  rcases List.mem_cons.mp ha with rfl | ha
  · exact .inr rfl
  · rcases List.mem_cons.mp ha with rfl | ha
    · exact .inl rfl
    · obtain rfl := List.mem_singleton.mp ha
      exact .inr rfl

/-- Whatever was in `read_buf` before. -/
theorem session_log_logged :
    ∃ c d, (system fixedZlib (some ['h']) []).run logged = some c
      ∧ (system fixedZlib (some ['h']) [7, 7, 7, 7, 7, 7, 7, 7, 7, 7]).run logged = some d
      ∧ (packetsOf c.session.events).map named = (packetsOf d.session.events).map named := by
  obtain ⟨c, hc⟩ : ∃ c, (system fixedZlib (some ['h']) []).run logged = some c :=
    Option.isSome_iff_exists.mp (by decide +kernel)
  obtain ⟨d, hd⟩ : ∃ d, (system fixedZlib (some ['h'])
      [7, 7, 7, 7, 7, 7, 7, 7, 7, 7]).run logged = some d :=
    Option.isSome_iff_exists.mp (by decide +kernel)
  have hlines : ((system fixedZlib (some ['h']) []).run logged).map Logged.lines
      = ((system fixedZlib (some ['h']) [7, 7, 7, 7, 7, 7, 7, 7, 7, 7]).run logged).map
          Logged.lines := by
    decide +kernel
  rw [hc, hd] at hlines
  have hall := session_log fixedZlib fixedZlib ['h'] _ _ _ _ logged logged c d hc hd (.inr rfl)
    (.inr rfl) known_logged known_logged (Option.some.inj hlines)
  exact ⟨c, d, hc, hd, hall.2.2.1⟩

end Bancho.Logger
