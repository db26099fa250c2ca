import Jeux.Util.Threads
import Jeux.Wire.Protocol

/-!
The connection of one client, on which any number of threads send at once. Each write is a step of
its own; the lock of the client is what keeps the packets apart.
-/

namespace Jeux.Wire

structure Message where
  hdr : PacketHeader
  pad : Padding
  data : Option (List Byte)
  deriving DecidableEq, Repr

def Message.bytes (m : Message) : List Byte := encoding m.hdr m.pad m.data

inductive SendCall where
  | sendPacket (hdr : PacketHeader) (pad : Padding) (data : Option (List Byte))
  | sendAck (data : Option (List Byte)) (datalen : Nat)
  | sendNack
  deriving DecidableEq, Repr

namespace SendCall

def message (clock : UInt32 × UInt32) : SendCall → Message
  | sendPacket hdr pad data => ⟨hdr, pad, data⟩
  | sendAck data datalen => ⟨createHeader clock .ack 0 .nullRole datalen, zeroPadding, data⟩
  | sendNack => ⟨createHeader clock .nack 0 .nullRole 0, zeroPadding, none⟩

def Fits : SendCall → Prop
  | sendPacket hdr _ data => hdr.size.toNat ≤ (data.getD []).length
  | sendAck data datalen => datalen ≤ (data.getD []).length
  | sendNack => True

instance (call : SendCall) : Decidable call.Fits := by
  unfold Fits
  split <;> infer_instance

end SendCall

/--
Where a call is: before the lock, in one of the two loops of `proto_send_packet` with so many bytes
of header or payload sent, before the unlock, or done.
-/
inductive SendPc where
  | called (call : SendCall)
  | header (m : Message) (sent : Nat)
  | payload (m : Message) (sent : Nat)
  | unlocking (m : Message) (ret : Int)
  | returned (m : Message) (ret : Int)
  deriving DecidableEq, Repr

inductive SendStep where
  | lock (clock : UInt32 × UInt32)
  | write (n : Nat)
  | unlock

/--
The connection, its lock, and for the record the messages in the order in which the lock was taken
for them, and those of them whose send has finished.
-/
structure Connection where
  lock : Option Nat
  wire : List Byte
  acquired : List Message
  finished : List Message

def initialConnection : Connection where
  lock := none
  wire := []
  acquired := []
  finished := []

def afterHeader (m : Message) : SendPc :=
  match m.data with
  | none => if m.hdr.size = 0 then .unlocking m 0 else .unlocking m (-1)
  | some _ => if m.hdr.size = 0 then .unlocking m (-1) else .payload m 0

def sendProgram : Program Connection SendPc SendStep where
  starts _ p :=
    match p with
    | .called call => decide call.Fits
    | _ => false
  step self s p a :=
    match p, a with
    | .called call, .lock clock =>
      if s.lock = none then
        let m := call.message clock
        some ({ s with lock := some self, acquired := s.acquired ++ [m] }, .header m 0)
      else
        none
    | .header m sent, .write n =>
      if 0 < n ∧ sent + n ≤ headerSize then
        let s := { s with wire := s.wire ++ ((headerBytes m.hdr m.pad).drop sent).take n }
        some (s, if sent + n < headerSize then .header m (sent + n) else afterHeader m)
      else
        none
    | .payload m sent, .write n =>
      if 0 < n ∧ sent + n ≤ m.hdr.size.toNat then
        let s := { s with wire := s.wire ++ ((m.data.getD []).drop sent).take n }
        some (s, if sent + n < m.hdr.size.toNat then .payload m (sent + n) else .unlocking m 0)
      else
        none
    | .unlocking m ret, .unlock =>
      some ({ s with lock := none, finished := s.finished ++ [m] }, .returned m ret)
    | _, _ => none

namespace SendPc

def current? : SendPc → Option Message
  | header m _ | payload m _ | unlocking m _ => some m
  | _ => none

def written : SendPc → Nat
  | header _ sent => sent
  | payload _ sent => headerSize + sent
  | unlocking m _ => m.bytes.length
  | _ => 0

def finished (m : Message) : SendPc → Nat
  | returned m' _ => if m' = m then 1 else 0
  | _ => 0

end SendPc

def SendOk (s : Connection) (self : Nat) (p : SendPc) : Prop :=
  (∀ call, p = .called call → call.Fits)
    ∧ ∀ m, p.current? = some m → s.lock = some self
      ∧ m.hdr.size.toNat ≤ (m.data.getD []).length
      ∧ ∃ before, s.acquired = before ++ [m] ∧ s.finished = before
        ∧ s.wire = before.flatMap Message.bytes ++ m.bytes.take p.written

inductive SendActs (s : Connection) (self : Nat) : SendPc → Connection → SendPc → Prop
  | acquires (call : SendCall) (clock : UInt32 × UInt32) (hfree : s.lock = none)
      : SendActs s self (.called call)
          { s with lock := some self, acquired := s.acquired ++ [call.message clock] }
          (.header (call.message clock) 0)
  | writes {p p' : SendPc} (m : Message) (piece : List Byte) (hp : p.current? = some m)
      (hp' : p'.current? = some m)
      (hbytes : m.hdr.size.toNat ≤ (m.data.getD []).length →
        m.bytes.take p.written ++ piece = m.bytes.take p'.written)
      : SendActs s self p { s with wire := s.wire ++ piece } p'
  | releases (m : Message) (ret : Int)
      : SendActs s self (.unlocking m ret)
          { s with lock := none, finished := s.finished ++ [m] } (.returned m ret)

theorem SendCall.Fits.message {call : SendCall} (h : call.Fits) (clock : UInt32 × UInt32)
    : (call.message clock).hdr.size.toNat ≤ ((call.message clock).data.getD []).length := by
  cases call with
  | sendPacket hdr pad data => exact h
  | sendAck data datalen =>
    have hle := Nat.mod_le datalen (2 ^ 16)
    simp only [SendCall.Fits] at h
    simp only [SendCall.message, createHeader, UInt16.toNat_ofNat']
    omega
  | sendNack => simp [SendCall.message, createHeader]

theorem length_bytes (m : Message) (hfits : m.hdr.size.toNat ≤ (m.data.getD []).length)
    : m.bytes.length = headerSize + m.hdr.size.toNat := by
  simp only [Message.bytes, encoding, List.length_append, length_headerBytes, List.length_take]
  omega

theorem take_header (m : Message) (sent n : Nat) (hle : sent + n ≤ headerSize)
    : m.bytes.take sent ++ ((headerBytes m.hdr m.pad).drop sent).take n
        = m.bytes.take (sent + n) := by
  have hlength := length_headerBytes m.hdr m.pad
  have hroom : n ≤ ((headerBytes m.hdr m.pad).drop sent).length := by
    rw [List.length_drop]
    omega
  rw [List.take_add, Message.bytes, encoding, List.drop_append_of_le_length (by omega),
    List.take_append_of_le_length hroom]

theorem take_payload (m : Message) (sent n : Nat) (hle : sent + n ≤ m.hdr.size.toNat)
    : m.bytes.take (headerSize + sent) ++ ((m.data.getD []).drop sent).take n
        = m.bytes.take (headerSize + (sent + n)) := by
  have hlength := length_headerBytes m.hdr m.pad
  rw [Message.bytes, encoding, ← hlength, List.take_length_add_append, List.take_length_add_append,
    List.append_assoc, List.take_take, List.take_take, Nat.min_eq_left (by omega),
    Nat.min_eq_left hle, List.take_add]

theorem sendActs_of_step {s s' : Connection} {self : Nat} {p p' : SendPc} {a : SendStep}
    (h : sendProgram.step self s p a = some (s', p')) : SendActs s self p s' p' := by
  dsimp only [sendProgram] at h
  split at h
  . next call clock =>
    split at h
    . next hfree =>
      cases h
      exact .acquires call clock hfree
    . simp at h
  . next m sent n =>
    split at h
    . next hn =>
      have htake := take_header m sent n hn.2
      cases h
      by_cases hlt : sent + n < headerSize
      . rw [if_pos hlt]
        exact .writes m _ rfl rfl fun _ => htake
      . -- the header is out, and what comes next depends on the size field and the data
        have hend : sent + n = headerSize := by omega
        rw [if_neg hlt]
        rw [hend] at htake
        unfold afterHeader
        split
        . next hdata =>
          have hbytes : m.bytes.length = headerSize := by
            simp [Message.bytes, encoding, hdata]
          split
          all_goals
            refine .writes m _ rfl rfl fun _ => ?_
            rw [SendPc.written, SendPc.written, htake, ← hbytes, List.take_length]
        . split
          . next hsize =>
            have hbytes : m.bytes.length = headerSize := by
              simp [Message.bytes, encoding, hsize]
            refine .writes m _ rfl rfl fun _ => ?_
            rw [SendPc.written, SendPc.written, htake, ← hbytes, List.take_length]
          . exact .writes m _ rfl rfl fun _ => htake
    . simp at h
  . next m sent n =>
    split at h
    . next hn =>
      have htake := take_payload m sent n hn.2
      cases h
      by_cases hlt : sent + n < m.hdr.size.toNat
      . rw [if_pos hlt]
        exact .writes m _ rfl rfl fun _ => htake
      . rw [if_neg hlt]
        refine .writes m _ rfl rfl fun hfits => ?_
        have hend : sent + n = m.hdr.size.toNat := by omega
        rw [SendPc.written, SendPc.written, htake, hend, length_bytes m hfits]
    . simp at h
  . next m ret =>
    cases h
    exact .releases m ret
  . simp at h

structure Framed (T : Threads Connection SendPc) : Prop where
  each : Program.Each SendOk T
  quiet : T.shared.lock = none → T.shared.acquired = T.shared.finished
    ∧ T.shared.wire = T.shared.finished.flatMap Message.bytes
  holder : ∀ i, T.shared.lock = some i → ∃ p m, T.pcs[i]? = some p ∧ p.current? = some m
  count : ∀ m, T.shared.finished.count m = Program.total (SendPc.finished m) T.pcs

theorem framed_call {T : Threads Connection SendPc} {p : SendPc} (h : Framed T)
    (hstarts : sendProgram.starts T.shared p = true)
    : Framed { T with pcs := T.pcs ++ [p] } := by
  dsimp only [sendProgram] at hstarts
  split at hstarts
  . next call =>
    refine ⟨h.each.call ⟨?_, by simp [SendPc.current?]⟩, h.quiet, ?_, ?_⟩
    . intro call' hcall
      cases hcall
      exact of_decide_eq_true hstarts
    . intro i hi
      obtain ⟨p, m, hp, hm⟩ := h.holder i hi
      exact ⟨p, m, (List.getElem?_append_left (List.getElem?_eq_some_iff.mp hp).1).trans hp, hm⟩
    . intro m
      rw [Program.total_concat, ← h.count m]
      rfl
  . simp at hstarts

theorem framed_step {T : Threads Connection SendPc} {i : Nat} {a : SendStep} {p p' : SendPc}
    {s' : Connection} (h : Framed T) (hp : T.pcs[i]? = some p)
    (hstep : sendProgram.step i T.shared p a = some (s', p'))
    : Framed { shared := s', pcs := T.pcs.set i p' } := by
  have hacts := sendActs_of_step hstep
  have hlt : i < T.pcs.length := (List.getElem?_eq_some_iff.mp hp).1
  have hself := h.each i p hp
  have hcount := fun m => Program.total_set (SendPc.finished m) p' hp
  cases hacts with
  | acquires call clock hfree =>
    obtain ⟨hacquired, hwire⟩ := h.quiet hfree
    refine ⟨h.each.step ⟨by simp, ?_⟩ ?_, by simp, ?_, ?_⟩
    . intro m hm
      cases hm
      refine ⟨rfl, (hself.1 call rfl).message clock, T.shared.finished, ?_, rfl, ?_⟩
      . rw [hacquired]
      . simp [SendPc.written, hwire]
    . intro j q hne hq hok
      refine ⟨hok.1, fun m hm => ?_⟩
      -- nobody was inside
      have hlock := (hok.2 m hm).1
      simp [hfree] at hlock
    . intro j hj
      cases hj
      exact ⟨_, _, List.getElem?_set_self hlt, rfl⟩
    . intro m
      specialize hcount m
      simp only [SendPc.finished] at hcount
      dsimp only
      rw [h.count m]
      omega
  | writes m piece hm hm' hbytes =>
    obtain ⟨hlock, hfits, before, hacquired, hfinished, hwire⟩ := hself.2 m hm
    refine ⟨h.each.step ⟨?_, ?_⟩ ?_, by simp [hlock], ?_, ?_⟩
    . rintro call rfl
      simp [SendPc.current?] at hm'
    . intro m' hm''
      obtain rfl := Option.some.inj (hm'.symm.trans hm'')
      refine ⟨hlock, hfits, before, hacquired, hfinished, ?_⟩
      simp only [hwire, List.append_assoc, hbytes hfits]
    . intro j q hne hq hok
      refine ⟨hok.1, fun m' hm'' => ?_⟩
      -- two calls cannot both be inside
      have hj := (hok.2 m' hm'').1
      simp only [hlock, Option.some.injEq] at hj
      exact absurd hj.symm hne
    . intro j hj
      obtain rfl := Option.some.inj (hlock.symm.trans hj)
      exact ⟨_, _, List.getElem?_set_self hlt, hm'⟩
    . intro m'
      specialize hcount m'
      have hzero : SendPc.finished m' p = 0 ∧ SendPc.finished m' p' = 0 := by
        constructor
        . cases p <;> simp_all [SendPc.current?, SendPc.finished]
        . cases p' <;> simp_all [SendPc.current?, SendPc.finished]
      dsimp only
      rw [h.count m']
      omega
  | releases m ret =>
    obtain ⟨hlock, hfits, before, hacquired, hfinished, hwire⟩ := hself.2 m rfl
    refine ⟨h.each.step ⟨by simp, by simp [SendPc.current?]⟩ ?_, ?_, by simp, ?_⟩
    . intro j q hne hq hok
      refine ⟨hok.1, fun m' hm' => ?_⟩
      have hj := (hok.2 m' hm').1
      simp only [hlock, Option.some.injEq] at hj
      exact absurd hj.symm hne
    . intro _
      simp [hacquired, hfinished, hwire, SendPc.written]
    . intro m'
      specialize hcount m'
      simp only [SendPc.finished] at hcount
      simp only [List.count_append, List.count_singleton, h.count m', beq_iff_eq]
      omega

/--
However the calls interleave and the writes are split, what is on the wire is the messages that are
finished, complete and in the order in which the lock was taken for them, each as often as it has
been sent, and after them the first bytes of the one that is being sent.
-/
theorem connection_framed {T : Threads Connection SendPc}
    (h : sendProgram.machine.Reach (fun _ _ => True) ⟨initialConnection, []⟩ T)
    : ∃ part, T.shared.wire = T.shared.finished.flatMap Message.bytes ++ part
      ∧ (∀ m, T.shared.finished.count m = Program.total (SendPc.finished m) T.pcs)
      ∧ ((T.shared.lock = none ∧ T.shared.acquired = T.shared.finished ∧ part = [])
        ∨ ∃ i p m, T.shared.lock = some i ∧ T.pcs[i]? = some p ∧ p.current? = some m
          ∧ T.shared.acquired = T.shared.finished ++ [m] ∧ part = m.bytes.take p.written) := by
  have hframed : Framed T := by
    apply Program.reach_induction Framed h
    . exact ⟨by simp [Program.Each], fun _ => ⟨rfl, rfl⟩, by simp [initialConnection],
        fun _ => rfl⟩
    . intro T p hinv _ hstarts
      exact framed_call hinv hstarts
    . intro T i a p s p' hinv _ hp hstep
      exact framed_step hinv hp hstep
  cases hlock : T.shared.lock with
  | none =>
    obtain ⟨hacquired, hwire⟩ := hframed.quiet hlock
    exact ⟨[], by simp [hwire], hframed.count, .inl ⟨rfl, hacquired, rfl⟩⟩
  | some i =>
    obtain ⟨p, m, hp, hm⟩ := hframed.holder i hlock
    obtain ⟨-, -, before, hacquired, hfinished, hwire⟩ := (hframed.each i p hp).2 m hm
    subst hfinished
    exact ⟨_, hwire, hframed.count, .inr ⟨i, p, m, rfl, hp, hm, hacquired, rfl⟩⟩

def twoSends : List (Program.Event SendPc SendStep) :=
  [.call (.called (.sendAck none 0)), .call (.called .sendNack), .step 0 (.lock (0, 0)),
    .step 0 (.write 10), .step 0 (.write 6), .step 0 .unlock, .step 1 (.lock (0, 0)),
    .step 1 (.write 5)]

theorem connection_framed_of_twoSends : ∃ T : Threads Connection SendPc,
    sendProgram.machine.Reach (fun _ _ => True) ⟨initialConnection, []⟩ T
      ∧ (T.shared.finished.length = 1 ∧ T.shared.lock = some 1)
      ∧ ∃ part, T.shared.wire = T.shared.finished.flatMap Message.bytes ++ part := by
  obtain ⟨T, hreach, hT⟩ := Machine.Reach.of_any_run sendProgram.machine (fun _ _ => True)
    ⟨initialConnection, []⟩ twoSends
    (fun T => T.shared.finished.length = 1 ∧ T.shared.lock = some 1) (by decide +kernel)
  obtain ⟨part, hwire, -⟩ := connection_framed hreach
  exact ⟨T, hreach, of_decide_eq_true hT, part, hwire⟩

end Jeux.Wire
