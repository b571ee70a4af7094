import AfsimNs3.Lib.Machine
import AfsimNs3.Lib.Text

/-!
# Writing messages (`SendAll`)

`SendAll` writes a message in as many pieces as the socket takes it, and gives up when the socket is not writable for a
second or fails. `ProcessConnection` leaves the connection at the first message that is given up.

* `sendAll_eq_some`: the octets written are a beginning of the message, all of it exactly when the result is `true`;
* `Outgoing.run_written`: the octets of a connection are the messages sent, one after the other, and a beginning of the
  one given up.
-/

namespace AfsimNs3.Adapter

/-- What the socket does in one turn of the loop. -/
inductive SocketTurn where
  /-- `WaitSocket` returns false. -/
  | notWritable
  /-- `send` takes some octets. -/
  | written (n : ℕ)
  /-- `send` fails, and would have blocked. -/
  | wouldBlock
  | failed

/-- The loop of `SendAll`: its result and the octets sent. `none` says that the socket cannot do that, or that the loop
goes on after the last turn. -/
def sendLoop (size : ℕ) : List SocketTurn → ℕ → Option (Bool × ℕ)
  | [], sent => if sent < size then none else some (true, sent)
  | turn :: turns, sent =>
    if sent < size then
      match turn with
      | .notWritable => some (false, sent)
      | .written n => if 0 < n ∧ n ≤ size - sent then sendLoop size turns (sent + n) else none
      | .wouldBlock => sendLoop size turns sent
      | .failed => some (false, sent)
    else some (true, sent)

/-- `SendAll`, with the octets it wrote. The length of a message is one of an `int`. -/
def sendAll (message : Bytes) (turns : List SocketTurn) : Option (Bool × Bytes) :=
  (sendLoop message.length turns 0).map (fun p => (p.1, message.take p.2))

theorem sendLoop_le {size sent : ℕ} (hsent : sent ≤ size) {turns : List SocketTurn} {result : Bool × ℕ}
    (h : sendLoop size turns sent = some result) : result.2 ≤ size ∧ (result.1 = true ↔ result.2 = size) := by
  induction turns generalizing sent with
  | nil =>
    rw [sendLoop] at h
    split_ifs at h with hlt
    obtain rfl := Option.some.inj h
    exact ⟨hsent, iff_of_true rfl (by omega)⟩
  | cons turn turns ih =>
    rw [sendLoop.eq_def] at h
    dsimp only at h
    split_ifs at h with hlt
    · cases turn with
      | notWritable =>
        obtain rfl := Option.some.inj h
        exact ⟨hsent, iff_of_false Bool.false_ne_true (by omega)⟩
      | written n =>
        dsimp only at h
        split_ifs at h with hn
        exact ih (by omega) h
      | wouldBlock => exact ih hsent h
      | failed =>
        obtain rfl := Option.some.inj h
        exact ⟨hsent, iff_of_false Bool.false_ne_true (by omega)⟩
    · obtain rfl := Option.some.inj h
      exact ⟨hsent, iff_of_true rfl (by omega)⟩

/-- **A message is written from its beginning**, and is whole exactly when `SendAll` says so. -/
theorem sendAll_eq_some {message octets : Bytes} {ok : Bool} {turns : List SocketTurn}
    (h : sendAll message turns = some (ok, octets)) : octets <+: message ∧ (ok = true ↔ octets = message) := by
  obtain ⟨⟨ok', sent⟩, hloop, heq⟩ := Option.map_eq_some_iff.mp h
  obtain ⟨rfl, rfl⟩ := Prod.mk.inj heq
  obtain ⟨hle, hwhole⟩ := sendLoop_le (Nat.zero_le _) hloop
  refine ⟨List.take_prefix _ _, hwhole.trans ?_⟩
  rw [List.take_eq_self_iff]
  dsimp only at hle ⊢
  omega

/-! ## A connection -/

/-- The octets written to a connection, the messages `SendAll` returned `true` for, and the one it gave up. -/
structure Outgoing where
  written : Bytes
  confirmed : List Bytes
  givenUp : Option Bytes

namespace Outgoing

def new : Outgoing := ⟨[], [], none⟩

/-- The next message of `ProcessConnection`. -/
def send (o : Outgoing) (message : Bytes × List SocketTurn) : Option Outgoing :=
  match o.givenUp, sendAll message.1 message.2 with
  | none, some (true, octets) => some ⟨o.written ++ octets, o.confirmed ++ [message.1], none⟩
  | none, some (false, octets) => some ⟨o.written ++ octets, o.confirmed, some message.1⟩
  | _, _ => none

/-- The octets are the confirmed messages and a part of the one given up. -/
structure Accounts (o : Outgoing) (messages : List Bytes) : Prop where
  messages : messages = o.confirmed ++ o.givenUp.toList
  written : ∃ part, o.written = o.confirmed.flatten ++ part ∧ part <+: o.givenUp.getD [] ∧ ∀ message ∈ o.givenUp,
    part ≠ message

theorem Accounts.send {o o' : Outgoing} {messages : List Bytes} (h : o.Accounts messages)
    {message : Bytes × List SocketTurn} (hsend : o.send message = some o') : o'.Accounts (messages ++ [message.1]) := by
  obtain ⟨hmessages, part, hwritten, hpart, -⟩ := h
  unfold Outgoing.send at hsend
  split at hsend
  · rename_i octets hnone hall
    obtain rfl := Option.some.inj hsend
    obtain rfl : octets = message.1 := (sendAll_eq_some hall).2.mp rfl
    rw [hnone] at hmessages hpart
    obtain rfl : part = [] := List.prefix_nil.mp hpart
    refine ⟨?_, [], ?_, List.prefix_rfl, fun _ hm => nomatch hm⟩
    · rw [hmessages, Option.toList_none, List.append_nil]
      exact (List.append_nil _).symm
    · rw [hwritten, List.flatten_append, List.flatten_singleton, List.append_nil, List.append_nil]
  · rename_i octets hnone hall
    obtain rfl := Option.some.inj hsend
    obtain ⟨hpre, hwhole⟩ := sendAll_eq_some hall
    rw [hnone] at hmessages hpart
    obtain rfl : part = [] := List.prefix_nil.mp hpart
    refine ⟨?_, octets, ?_, hpre, fun m hm heq => ?_⟩
    · rw [hmessages, Option.toList_none, List.append_nil]
      rfl
    · rw [hwritten, List.append_nil]
    · obtain rfl := Option.some.inj hm
      exact Bool.false_ne_true (hwhole.mpr heq)
  · exact nomatch hsend

/-- **What a connection has written**, after any messages and whatever the socket did. -/
theorem run_written {messages : List (Bytes × List SocketTurn)} {o : Outgoing}
    (hrun : Machine.run send new messages = some o) : o.Accounts (messages.map Prod.fst) := by
  induction messages using List.reverseRecOn generalizing o with
  | nil =>
    obtain rfl := Option.some.inj hrun
    exact ⟨rfl, [], rfl, List.prefix_rfl, fun _ hm => nomatch hm⟩
  | append_singleton messages message ih =>
    obtain ⟨t, hfront, hlast⟩ := Machine.run_append.mp hrun
    obtain ⟨u, hsend, hu⟩ := Machine.run_cons.mp hlast
    obtain rfl := Option.some.inj hu
    rw [List.map_append, List.map_singleton]
    exact (ih hfront).send hsend

end Outgoing

end AfsimNs3.Adapter
