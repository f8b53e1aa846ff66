import MsgpackRpc.Common.Status

/-!
# The incremental message parser

`msgpack::unpacker` is a dependency: it enters as the function that `try_parse` computes from the
bytes which have been consumed and not yet parsed.
-/

namespace MsgpackRpc

/-- What one `try_parse` finds at the front of the unparsed bytes. -/
inductive Parsed (ω : Type) where
  | incomplete
  | message (message : ω) (rest : List UInt8)
  | invalid (status : Status)

/-- A complete value takes at least one byte of the buffer. -/
structure MessageParser (ω : Type) where
  readBufferSize : Nat
  tryParse : List UInt8 → Parsed ω
  shorter : ∀ {buffer m rest}, tryParse buffer = .message m rest → rest.length < buffer.length

/-- What the `while (true)` loop of `process_read_bytes` takes out of the buffer: the messages it
hands to `on_received_`, the status of the exception that ended it, and the bytes left. -/
structure Drained (ω : Type) where
  messages : List ω
  invalid : Option Status
  rest : List UInt8

namespace MessageParser

variable {ω : Type} (p : MessageParser ω)

def drainFuel : Nat → List UInt8 → Drained ω
  | 0, buffer => ⟨[], none, buffer⟩
  | fuel + 1, buffer =>
      match p.tryParse buffer with
      | .incomplete => ⟨[], none, buffer⟩
      | .invalid status => ⟨[], some status, buffer⟩
      | .message m rest =>
          let drained := drainFuel fuel rest
          { drained with messages := m :: drained.messages }

def drain (buffer : List UInt8) : Drained ω :=
  p.drainFuel (buffer.length + 1) buffer

theorem drainFuel_eq_of_length_lt {fuel fuel' : Nat} {buffer : List UInt8}
    (h : buffer.length < fuel) (h' : buffer.length < fuel') :
    p.drainFuel fuel buffer = p.drainFuel fuel' buffer := by
  induction fuel generalizing fuel' buffer with
  | zero => omega
  | succ fuel ih =>
    cases fuel' with
    | zero => omega
    | succ fuel' =>
      unfold drainFuel
      cases hparse : p.tryParse buffer with
      | incomplete => rfl
      | invalid status => rfl
      | message m rest =>
        have hshorter := p.shorter hparse
        have hrest : p.drainFuel fuel rest = p.drainFuel fuel' rest := ih (by omega) (by omega)
        simp only [hrest]

/-- The loop ends by itself: the fuel never cuts it short. -/
theorem drain_eq (buffer : List UInt8) :
    p.drain buffer =
      match p.tryParse buffer with
      | .incomplete => ⟨[], none, buffer⟩
      | .invalid status => ⟨[], some status, buffer⟩
      | .message m rest => { p.drain rest with messages := m :: (p.drain rest).messages } := by
  rw [drain, drainFuel]
  cases hparse : p.tryParse buffer with
  | incomplete => rfl
  | invalid status => rfl
  | message m rest =>
    have hrest : p.drainFuel buffer.length rest = p.drain rest :=
      p.drainFuel_eq_of_length_lt (p.shorter hparse) (Nat.lt_succ_self rest.length)
    simp only [hrest]

/-! ## Streams that arrive in pieces -/

/-- Parsing does not depend on what arrives later: a message is made of bytes that are this message
wherever they stand, and what is invalid stays invalid. -/
structure Incremental : Prop where
  empty : p.tryParse [] = .incomplete
  message : ∀ {buffer m rest}, p.tryParse buffer = .message m rest →
    ∃ front, buffer = front ++ rest ∧ ∀ more, p.tryParse (front ++ more) = .message m more
  invalid : ∀ {buffer status}, p.tryParse buffer = .invalid status →
    ∀ more, p.tryParse (buffer ++ more) = .invalid status

/-- `bytes` is a sequence of complete messages. -/
inductive Messages : List UInt8 → List ω → Prop where
  | nil : Messages [] []
  | cons {front back : List UInt8} {m : ω} {ms : List ω}
      (hfront : ∀ more, p.tryParse (front ++ more) = .message m more) (hback : Messages back ms) :
      Messages (front ++ back) (m :: ms)

/-- `messages` are those of the longest prefix of `bytes` that consists of complete messages, and
`rest` follows this prefix. -/
def Longest (bytes : List UInt8) (messages : List ω) (rest : List UInt8) : Prop :=
  ∃ front, bytes = front ++ rest ∧ p.Messages front messages ∧
    ∀ front' messages', front' <+: bytes → p.Messages front' messages' → front' <+: front

variable {p}

theorem messages_drain (hp : p.Incremental) (buffer : List UInt8) :
    ∃ front, buffer = front ++ (p.drain buffer).rest ∧
      p.Messages front (p.drain buffer).messages := by
  induction hlength : buffer.length using Nat.strongRecOn generalizing buffer with
  | ind n ih =>
    rw [p.drain_eq buffer]
    cases hparse : p.tryParse buffer with
    | incomplete => exact ⟨[], rfl, .nil⟩
    | invalid status => exact ⟨[], rfl, .nil⟩
    | message m rest =>
      obtain ⟨front, rfl, hfront⟩ := hp.message hparse
      have hshorter := p.shorter hparse
      obtain ⟨back, hback, hmessages⟩ := ih rest.length (by omega) rest rfl
      refine ⟨front ++ back, ?_, .cons hfront hmessages⟩
      rw [List.append_assoc, ← hback]

/-- The loop has taken every complete message out of the buffer. -/
theorem tryParse_rest (buffer : List UInt8) :
    p.tryParse (p.drain buffer).rest =
      match (p.drain buffer).invalid with
      | some status => .invalid status
      | none => .incomplete := by
  induction hlength : buffer.length using Nat.strongRecOn generalizing buffer with
  | ind n ih =>
    rw [p.drain_eq buffer]
    cases hparse : p.tryParse buffer with
    | incomplete => exact hparse
    | invalid status => exact hparse
    | message m rest =>
      have hshorter := p.shorter hparse
      exact ih rest.length (by omega) rest rfl

theorem Messages.drain_eq {front : List UInt8} {messages : List ω} (h : p.Messages front messages)
    (more : List UInt8) :
    p.drain (front ++ more) =
      { p.drain more with messages := messages ++ (p.drain more).messages } := by
  induction h with
  | nil => rfl
  | cons hfront hback ih =>
    rw [List.append_assoc, MessageParser.drain_eq, hfront]
    simp only [ih, List.cons_append]

theorem drain_longest (hp : p.Incremental) (buffer : List UInt8) :
    p.Longest buffer (p.drain buffer).messages (p.drain buffer).rest := by
  obtain ⟨front, hbuffer, hmessages⟩ := messages_drain hp buffer
  refine ⟨front, hbuffer, hmessages, fun front' messages' hprefix hmessages' => ?_⟩
  -- the loop has passed `front'` as well
  obtain ⟨more, rfl⟩ := hprefix
  obtain ⟨front'', hmore, -⟩ := messages_drain hp more
  have hrest := congrArg Drained.rest (hmessages'.drain_eq more)
  rw [hrest] at hbuffer
  refine ⟨front'', ?_⟩
  apply (List.append_left_inj (p.drain more).rest).mp
  rw [List.append_assoc, ← hmore]
  exact hbuffer

theorem drain_nil (hp : p.Incremental) : p.drain [] = ⟨[], none, []⟩ := by
  rw [p.drain_eq, hp.empty]

theorem Messages.unique {front : List UInt8} {messages messages' : List ω}
    (h : p.Messages front messages) (h' : p.Messages front messages') : messages = messages' := by
  have hdrain := (h.drain_eq []).symm.trans (h'.drain_eq [])
  exact List.append_cancel_right (congrArg Drained.messages hdrain)

/-- A stream has one longest prefix of complete messages. -/
theorem Longest.unique {bytes rest rest' : List UInt8} {messages messages' : List ω}
    (h : p.Longest bytes messages rest) (h' : p.Longest bytes messages' rest') :
    messages = messages' ∧ rest = rest' := by
  obtain ⟨front, hbytes, hmessages, hlongest⟩ := h
  obtain ⟨front', hbytes', hmessages', hlongest'⟩ := h'
  have hle := hlongest front' messages' ⟨rest', hbytes'.symm⟩ hmessages'
  have hge := hlongest' front messages ⟨rest, hbytes.symm⟩ hmessages
  obtain rfl : front = front' := hge.eq_of_length (Nat.le_antisymm hge.length_le hle.length_le)
  refine ⟨hmessages.unique hmessages', ?_⟩
  apply (List.append_right_inj front).mp
  rw [← hbytes, ← hbytes']

/-- Draining a stream in two pieces. -/
theorem drain_append (hp : p.Incremental) (buffer more : List UInt8) :
    p.drain (buffer ++ more) =
      { p.drain ((p.drain buffer).rest ++ more) with
        messages := (p.drain buffer).messages ++
          (p.drain ((p.drain buffer).rest ++ more)).messages } := by
  obtain ⟨front, hbuffer, hmessages⟩ := messages_drain hp buffer
  have hmore := hmessages.drain_eq ((p.drain buffer).rest ++ more)
  rw [← List.append_assoc, ← hbuffer] at hmore
  exact hmore

end MessageParser

/-- The parser of a stream whose first message never becomes complete. -/
def idleParser (ω : Type) : MessageParser ω where
  readBufferSize := 1024
  tryParse _ := .incomplete
  shorter h := by cases h

end MsgpackRpc
