import Mathlib.Data.List.Forall2
import MsgpackRpc.Messages.MessageSerializer
import MsgpackRpc.Messages.Unpacker

/-!
# Serialized messages in a stream

What is serialized at one end of a connection is what the parser takes out of the stream at the
other end, whatever follows it.
-/

namespace MsgpackRpc

namespace MessageParser

variable {ω : Type} {p : MessageParser ω}

/-- The parser takes `bytes` out of a stream as `message`. -/
def TakesAs (p : MessageParser ω) (bytes : List UInt8) (message : ω) : Prop :=
  ∀ more, p.tryParse (bytes ++ more) = .message message more

theorem messages_of_forall₂ {frames : List (List UInt8)} {ms : List ω}
    (h : List.Forall₂ p.TakesAs frames ms) : p.Messages frames.flatten ms := by
  induction h with
  | nil => exact .nil
  | cons htakes _ ih =>
    rw [List.flatten_cons]
    exact .cons htakes ih

/-- A stream of messages is read to its end. -/
theorem drain_flatten (hp : p.Incremental) {frames : List (List UInt8)} {ms : List ω}
    (h : List.Forall₂ p.TakesAs frames ms) : p.drain frames.flatten = ⟨ms, none, []⟩ := by
  have hdrain := (messages_of_forall₂ h).drain_eq []
  rw [List.append_nil, drain_nil hp, List.append_nil] at hdrain
  exact hdrain

/-- The beginning of a stream of messages is valid, and it holds the first of the messages. -/
theorem drain_of_prefix (hp : p.Incremental) {frames : List (List UInt8)} {ms : List ω}
    {bytes : List UInt8} (h : List.Forall₂ p.TakesAs frames ms)
    (hfront : bytes <+: frames.flatten) :
    (p.drain bytes).invalid = none ∧ (p.drain bytes).messages <+: ms := by
  obtain ⟨more, hmore⟩ := hfront
  have hsplit := drain_append hp bytes more
  rw [hmore, drain_flatten hp h] at hsplit
  constructor
  · cases hinvalid : (p.drain bytes).invalid with
    | none => rfl
    | some status =>
      -- what is invalid stays invalid when the rest of the stream arrives
      have hrest := tryParse_rest (p := p) bytes
      rw [hinvalid] at hrest
      have hlater := p.drain_eq ((p.drain bytes).rest ++ more)
      rw [hp.invalid hrest more] at hlater
      rw [hlater] at hsplit
      cases congrArg Drained.invalid hsplit
  · have hmessages : ms = _ := congrArg Drained.messages hsplit
    exact hmessages ▸ List.prefix_append _ _

theorem exists_forall₂_takesAs {R : List UInt8 → ω → Prop} {frames : List (List UInt8)}
    (h : ∀ bytes ∈ frames, ∃ m, R bytes m ∧ p.TakesAs bytes m) :
    ∃ ms, List.Forall₂ p.TakesAs frames ms ∧ List.Forall₂ R frames ms := by
  induction frames with
  | nil => exact ⟨[], .nil, .nil⟩
  | cons bytes frames ih =>
    rw [List.forall_mem_cons] at h
    obtain ⟨m, hm, htakes⟩ := h.1
    obtain ⟨ms, hms, hR⟩ := ih h.2
    exact ⟨m :: ms, .cons htakes hms, .cons hm hR⟩

end MessageParser

namespace Messages

open Msgpack (Value)
open MessageSerializer

/-- The msgpack library of a program: its unpacker finds in a stream what its packer has packed. -/
structure Codec where
  lib : MsgpackLibrary
  unpacker : Unpacker
  lawful : lib.Lawful
  incremental : unpacker.Incremental
  reads_array : ∀ items packed, items.length < 256 ^ 4 → items.mapM lib.pack = some packed →
    Reader.Reads unpacker.next (.array items) (lib.packArray items.length ++ packed.flatten)

/-- The parser takes the messages of a stream as what they say alone. -/
theorem exists_parsed {lib : MsgpackLibrary} {p : MessageParser ParsedMessage}
    {frames : List (List UInt8)}
    (h : ∀ bytes ∈ frames, ∃ m, parseBytes lib bytes = some m ∧ p.TakesAs bytes m) :
    ∃ ms, List.Forall₂ p.TakesAs frames ms ∧ frames.map (parseBytes lib) = ms.map some := by
  obtain ⟨ms, htakes, hparses⟩ := MessageParser.exists_forall₂_takesAs h
  refine ⟨ms, htakes, ?_⟩
  rw [← List.forall₂_eq_eq_eq, List.forall₂_map_left_iff, List.forall₂_map_right_iff]
  exact hparses

namespace Codec

def parser (c : Codec) (readBufferSize : Nat) : MessageParser ParsedMessage :=
  messageParser c.unpacker c.incremental c.lib readBufferSize

theorem parser_incremental (c : Codec) (readBufferSize : Nat) :
    (c.parser readBufferSize).Incremental :=
  messageParser_incremental c.incremental c.lib readBufferSize

theorem takesAs_serialize (c : Codec) (readBufferSize : Nat) {pieces : List Value}
    {bytes : List UInt8} {message : ParsedMessage} (h : serialize c.lib pieces = some bytes)
    (hparse : parseMessageFromObject c.lib (.array pieces) = .ok message)
    (hsize : pieces.length ≤ 4) : (c.parser readBufferSize).TakesAs bytes message := by
  intro more
  rw [serialize, Option.bind_eq_bind, Option.bind_eq_some_iff] at h
  obtain ⟨packed, hpacked, hbytes⟩ := h
  cases hbytes
  have hread := c.reads_array pieces packed (by omega) hpacked more
  show tryParse c.unpacker c.lib _ = _
  simp only [tryParse, hread, hparse]

theorem takesAs_request (c : Codec) (readBufferSize : Nat) {name : List UInt8} {id : UInt32}
    {parameters : List Value} {bytes : List UInt8}
    (h : serializeRequest c.lib name id parameters = some bytes) :
    (c.parser readBufferSize).TakesAs bytes
      (.request { id, methodName := name, parameters := ⟨parameters⟩ }) :=
  c.takesAs_serialize readBufferSize h (c.lawful.parseMessage_request id name parameters)
    (Nat.le_refl 4)

theorem takesAs_notification (c : Codec) (readBufferSize : Nat) {name : List UInt8}
    {parameters : List Value} {bytes : List UInt8}
    (h : serializeNotification c.lib name parameters = some bytes) :
    (c.parser readBufferSize).TakesAs bytes
      (.notification { methodName := name, parameters := ⟨parameters⟩ }) :=
  c.takesAs_serialize readBufferSize h (c.lawful.parseMessage_notification name parameters)
    (Nat.le_succ 3)

theorem takesAs_response (c : Codec) (readBufferSize : Nat) {id : UInt32} {error result : Value}
    {bytes : List UInt8} (h : serialize c.lib [integer 1, integer id, error, result] = some bytes) :
    (c.parser readBufferSize).TakesAs bytes
      (.response { id, result := .ofResponse error result }) :=
  c.takesAs_serialize readBufferSize h (c.lawful.parseMessage_response id error result)
    (Nat.le_refl 4)

end Codec

theorem formatUnpacker_reads_array (items : List Value) (packed : List (List UInt8))
    (hsize : items.length < 256 ^ 4) (hpacked : items.mapM formatLibrary.pack = some packed) :
    Reader.Reads formatUnpacker.next (.array items)
      (formatLibrary.packArray items.length ++ packed.flatten) := by
  intro more
  obtain ⟨hfits, hflatten⟩ := mapM_pack_formatLibrary hpacked
  have harray : (Value.array items).fits = true := by
    rw [Value.fits, hfits, Bool.and_true, decide_eq_true hsize]
  rw [hflatten]
  exact Msgpack.next_encode harray more

/-- The msgpack format. -/
def formatCodec : Codec where
  lib := formatLibrary
  unpacker := formatUnpacker
  lawful := formatLibrary_lawful
  incremental := formatUnpacker_incremental
  reads_array := formatUnpacker_reads_array

end Messages

end MsgpackRpc
