import PresharedTls.Connection
import PresharedTls.Transport

/-!
# Loopback transport

A transport whose far end is a connection in memory. What is written is handed to that connection at
once, and what that connection queues can be read. How much a single call moves is limited, and calls
can be made to fail, so a run over it shows what a stream does on a bad network.
-/

namespace PresharedTls

structure Loopback (κ : Type) where
  peer : Connection κ
  inbound : Bytes
  maximumRead : Nat
  maximumWrite : Nat
  /-- What the next call of each kind fails with, before it does anything. -/
  readFault : Option TransportFault
  writeFault : Option TransportFault
  flushFault : Option TransportFault
  /-- Errors of the peer, the last one first. -/
  peerErrors : List ConnectionError
  /-- The bytes that were taken, call by call, the last one first. -/
  taken : List Bytes

namespace Loopback

variable {κ : Type}

/-- A loopback to `peer` on which nothing has been sent. -/
def fresh (peer : Connection κ) (maximumRead maximumWrite : Nat) : Loopback κ where
  peer := peer
  inbound := []
  maximumRead := maximumRead
  maximumWrite := maximumWrite
  readFault := none
  writeFault := none
  flushFault := none
  peerErrors := []
  taken := []

def collect (loopback : Loopback κ) : Loopback κ :=
  let (queued, peer) := loopback.peer.takeOutgoing
  if queued.isEmpty then loopback
  else { loopback with peer := peer, inbound := loopback.inbound ++ queued }

def read (limit : Nat) (loopback : Loopback κ) (entropy : Entropy) :
    Except TransportFault Bytes × Loopback κ × Entropy :=
  match loopback.readFault with
  | some fault => (.error fault, { loopback with readFault := none }, entropy)
  | none =>
    let loopback := loopback.collect
    let count := min limit loopback.maximumRead
    (.ok (loopback.inbound.take count), { loopback with inbound := loopback.inbound.drop count }, entropy)

def write (b : Bytes) (loopback : Loopback κ) (entropy : Entropy) :
    Except TransportFault Nat × Loopback κ × Entropy :=
  match loopback.writeFault with
  | some fault => (.error fault, { loopback with writeFault := none }, entropy)
  | none =>
    let b := b.take loopback.maximumWrite
    let (result, peer) := (loopback.peer.withEntropy entropy).receive b
    let errors := match result with
      | .ok () => loopback.peerErrors
      | .error error => error :: loopback.peerErrors
    (.ok b.length, { loopback with peer := peer, peerErrors := errors, taken := b :: loopback.taken },
      peer.entropy)

def flush (loopback : Loopback κ) (entropy : Entropy) : Except TransportFault Unit × Loopback κ × Entropy :=
  match loopback.flushFault with
  | some fault => (.error fault, { loopback with flushFault := none }, entropy)
  | none => (.ok (), loopback, entropy)

instance : Transport (Loopback κ) Empty where
  read := read
  write := write
  flush := flush

end Loopback

end PresharedTls
