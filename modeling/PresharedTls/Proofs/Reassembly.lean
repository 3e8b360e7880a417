import PresharedTls.Proofs.Codec.Messages

/-!
# Handshake messages out of fragments

Records bring the handshake bytes in fragments that end anywhere: inside a header, inside a body, or
behind several messages. Each fragment is joined to what the last ones left over, and what is complete
is taken off. It makes no difference where the fragments end. Up to a fault, the messages and what is
left over are those of the stream as a whole (`cut_flatten`), so nothing is lost or doubled, and what
was framed on the other side comes out as it was.
-/

namespace PresharedTls

/-- What a stream that comes in fragments is cut into, up to the first fault. -/
structure Reassembly (α : Type) where
  items : List α
  rest : Bytes
  fault : Option AlertDescription
  /-- The fragments behind the one that brought the fault, which are not looked at. -/
  unread : List Bytes

namespace Framing

variable {α : Type}

/-- Adds fragments to a buffer one by one, and takes off after each what it completes. -/
def reassemble (framing : Framing α) (buffer : Bytes) : (fragments : List Bytes) → Reassembly α
  | [] => ⟨[], buffer, none, []⟩
  | fragment :: behind =>
    let taken := framing.cut (buffer ++ fragment)
    match taken.fault with
    | some fault => ⟨taken.items, taken.rest, some fault, behind⟩
    | none =>
      let later := framing.reassemble taken.rest behind
      ⟨taken.items ++ later.items, later.rest, later.fault, later.unread⟩

variable (framing : Framing α)

theorem reassemble_singleton (buffer fragment : Bytes) :
    framing.reassemble buffer [fragment] =
      ⟨(framing.cut (buffer ++ fragment)).items, (framing.cut (buffer ++ fragment)).rest,
        (framing.cut (buffer ++ fragment)).fault, []⟩ := by
  rw [reassemble]
  cases hfault : (framing.cut (buffer ++ fragment)).fault with
  | some fault => rfl
  | none => simp only [reassemble, List.append_nil]

/-- Fragments are cut like the stream they come from, behind a buffer that holds no whole item. -/
theorem cut_flatten {buffer : Bytes} (hbuffer : framing.next buffer = .ok none) (fragments : List Bytes) :
    framing.cut (buffer ++ fragments.flatten) =
      ⟨(framing.reassemble buffer fragments).items,
        (framing.reassemble buffer fragments).rest ++ (framing.reassemble buffer fragments).unread.flatten,
        (framing.reassemble buffer fragments).fault⟩ := by
  induction fragments generalizing buffer with
  | nil => simpa [reassemble] using cut_of_none hbuffer
  | cons fragment behind ih =>
    rw [List.flatten_cons, ← List.append_assoc, cut_append, reassemble]
    cases hfault : (framing.cut (buffer ++ fragment)).fault with
    | some fault => rfl
    | none => rw [ih (framing.next_rest_of_cut _ hfault)]

/-- What is not read lies behind the fragment that brought a fault. -/
theorem unread_reassemble (buffer : Bytes) (fragments : List Bytes) :
    (∃ consumed, fragments = consumed ++ (framing.reassemble buffer fragments).unread) ∧
      ((framing.reassemble buffer fragments).fault = none → (framing.reassemble buffer fragments).unread = []) := by
  induction fragments generalizing buffer with
  | nil => exact ⟨⟨[], rfl⟩, fun _ => rfl⟩
  | cons fragment behind ih =>
    rw [reassemble]
    cases hfault : (framing.cut (buffer ++ fragment)).fault with
    | some fault => exact ⟨⟨[fragment], rfl⟩, fun hnone => nomatch hnone⟩
    | none =>
      obtain ⟨⟨consumed, hconsumed⟩, hunread⟩ := ih (framing.cut (buffer ++ fragment)).rest
      exact ⟨⟨fragment :: consumed, congrArg (fragment :: ·) hconsumed⟩, hunread⟩

end Framing

namespace HandshakeMessage

open Framing (reassemble)

theorem cut_flatMap_bytes {messages : List HandshakeMessage}
    (h : ∀ message ∈ messages, message.body.length ≤ HandshakeHeader.maximumLength) :
    framing.cut (messages.flatMap bytes) = ⟨messages, [], none⟩ := by
  induction messages with
  | nil => exact Framing.cut_of_none rfl
  | cons message behind ih =>
    have hnext : framing.next (message.bytes ++ behind.flatMap bytes) = .ok (some (message, behind.flatMap bytes)) :=
      next_bytes (h message List.mem_cons_self) _
    rw [List.flatMap_cons, Framing.cut_of_item hnext, ih fun other mem => h other (List.mem_cons_of_mem _ mem)]

theorem mapM_frame {messages : List HandshakeMessage} (h : ∀ message ∈ messages, message.Framed) :
    messages.mapM frame = .ok (messages.map bytes) := by
  induction messages with
  | nil => rfl
  | cons message behind ih =>
    rw [List.mapM_cons, frame_of_framed (h message List.mem_cons_self),
      ih fun other mem => h other (List.mem_cons_of_mem _ mem)]
    rfl

/-- A reassembly from nothing accounts for every byte of the fragments it read. -/
theorem flatMap_bytes_reassemble {fragments consumed : List Bytes}
    (h : fragments = consumed ++ (framing.reassemble [] fragments).unread) :
    (framing.reassemble [] fragments).items.flatMap bytes ++ (framing.reassemble [] fragments).rest =
      consumed.flatten := by
  have hwhole := (flatMap_bytes_cut ([] ++ fragments.flatten)).1
  have hsplit : fragments.flatten = consumed.flatten ++ (framing.reassemble [] fragments).unread.flatten := by
    rw [← List.flatten_append, ← h]
  rw [Framing.cut_flatten framing rfl, List.nil_append, hsplit, ← List.append_assoc] at hwhole
  exact List.append_cancel_right hwhole

/-- **Reassembly is exact.** The fragments of a stream give the messages and the fault of the stream in one
piece, and the messages with what is left over are the bytes that were read, which are all of them unless
there was a fault. Framed messages that a peer may send come out as they are, however they are cut. -/
theorem reassemble_exact (fragments : List Bytes) :
    ((framing.reassemble [] fragments).items = (framing.reassemble [] [fragments.flatten]).items ∧
      (framing.reassemble [] fragments).fault = (framing.reassemble [] [fragments.flatten]).fault) ∧
    (∃ consumed, fragments = consumed ++ (framing.reassemble [] fragments).unread ∧
      (framing.reassemble [] fragments).items.flatMap bytes ++ (framing.reassemble [] fragments).rest =
        consumed.flatten) ∧
    ((framing.reassemble [] fragments).fault = none → (framing.reassemble [] fragments).unread = []) ∧
    ∀ messages : List HandshakeMessage,
      (∀ message ∈ messages, message.body.length ≤ HandshakeHeader.maximumLength) →
      ∃ frames, messages.mapM frame = .ok frames ∧
        (fragments.flatten = frames.flatten → framing.reassemble [] fragments = ⟨messages, [], none, []⟩) := by
  have hempty : framing.next [] = .ok none := rfl
  have hwhole := framing.cut_flatten hempty fragments
  obtain ⟨⟨consumed, hconsumed⟩, hunread⟩ := framing.unread_reassemble [] fragments
  refine ⟨?_, ⟨consumed, hconsumed, flatMap_bytes_reassemble hconsumed⟩, hunread, fun messages hlength => ?_⟩
  · rw [Framing.reassemble_singleton, hwhole]
    exact ⟨rfl, rfl⟩
  · refine ⟨_, mapM_frame fun message mem => framed_of_le (hlength message mem), fun hframes => ?_⟩
    rw [List.nil_append, hframes, ← List.flatMap_def, cut_flatMap_bytes hlength] at hwhole
    obtain ⟨hitems, hrest, hfault⟩ := Cut.mk.inj hwhole
    obtain ⟨hrest, -⟩ := List.append_eq_nil_iff.mp hrest.symm
    generalize framing.reassemble [] fragments = result at hitems hrest hfault hunread
    obtain ⟨items, rest, fault, unread⟩ := result
    subst hitems hrest hfault
    rw [show unread = [] from hunread rfl]

/-- A message whose header comes in two fragments, with the next one behind it. -/
theorem reassemble_exact_split :
    framing.reassemble [] [[20, 0], [0, 1, 7, 14], [0, 0, 0]] =
      ⟨[⟨.finished, [7]⟩, ⟨.serverHelloDone, []⟩], [], none, []⟩ := by
  obtain ⟨frames, hframes, hexact⟩ := (reassemble_exact [[20, 0], [0, 1, 7, 14], [0, 0, 0]]).2.2.2
    [⟨.finished, [7]⟩, ⟨.serverHelloDone, []⟩] (by decide)
  obtain rfl := Except.ok.inj hframes
  exact hexact rfl

end HandshakeMessage

end PresharedTls
