import FleetEstimate.Failure

/-!
# Links

A link is the near end of a connection: the bytes that have come and are not yet
read, and the far end. What a far end does with the bytes it is sent, and which
bytes come from it when, is for the instances of `Remote` to say. Both may depend
on the outside world `ω`, which all far ends share.

`Link.receive` reads exactly so many bytes, however they are cut into pieces on
their way; `Link.writeAll` writes all bytes, however few are taken at a time.
-/

namespace FleetEstimate

/-- What comes next from a far end. -/
inductive Arrival
  /-- Some bytes; no bytes at all mean the end of the stream. -/
  | piece (bytes : Bytes)
  | failed (e : LinkError)
  /-- Nothing: for now, or never if it was waited for. -/
  | nothing

/-- The far end of a connection, in an outside world `ω`. -/
class Remote (ω : Type) (ρ : Type) where
  /-- Offers bytes to the far end: how many it takes, or why it takes none. -/
  write : Bytes → ρ → ω → Except LinkError Nat × ρ × ω
  /-- What has come from the far end by now. -/
  poll : ρ → Arrival × ρ
  /-- What comes next from the far end, waiting for it. -/
  await : ρ → ω → Arrival × ρ × ω
  /-- The near end is gone. -/
  close : ρ → ω → ω

/-- The near end of a connection. -/
structure Link (ρ : Type) where
  /-- Bytes that have come and are not yet read. -/
  unread : Bytes
  remote : ρ

/-- Why an exchange over a link goes no further. -/
inductive Halt
  | failed (e : LinkError)
  /-- It waits for bytes that never come. -/
  | stalled

/-- An exchange over a link. It keeps what it has read and written also when it
halts. -/
abbrev LinkM (ω ρ : Type) := ExceptT Halt (StateT (Link ρ) (StateM ω))

/-- Whether a link can be read without waiting. -/
inductive Readiness
  | unread
  | quiet
  /-- Nothing is unread, and nothing will come. -/
  | closed
deriving DecidableEq, Repr

namespace Link

variable {ω ρ : Type} [Remote ω ρ]

/-- A fresh link to a far end. -/
def new (remote : ρ) : Link ρ := ⟨[], remote⟩

/-- Looks for unread bytes without waiting. -/
def readiness (ω : Type) [Remote ω ρ] (l : Link ρ) : Readiness × Link ρ :=
  if l.unread ≠ [] then (.unread, l)
  else match Remote.poll ω l.remote with
    | (.piece [], remote) => (.closed, { l with remote })
    | (.piece bytes, remote) => (.unread, ⟨bytes, remote⟩)
    | (.failed _, remote) => (.closed, { l with remote })
    | (.nothing, remote) => (.quiet, { l with remote })

def fail {α : Type} (e : LinkError) : LinkM ω ρ α := throw (.failed e)

/-- Waits for the next piece; the empty piece at the end of the stream. -/
def nextPiece : LinkM ω ρ Bytes := do
  let l ← get
  let (arrival, remote, world) := Remote.await l.remote (← getThe ω)
  set world
  set { l with remote }
  match arrival with
  | .piece bytes => return bytes
  | .failed e => throw (.failed e)
  | .nothing => throw .stalled

/-- Waits until bytes can be read; `false` at the end of the stream. -/
def readable : LinkM ω ρ Bool := do
  if (← getThe (Link ρ)).unread ≠ [] then return true
  let bytes ← nextPiece
  modifyThe (Link ρ) fun l => { l with unread := bytes }
  return !bytes.isEmpty

/-- Reads `missing` more bytes after the pieces read so far, the last of which comes
first. Every piece shortens what is missing, so `pieces` need not exceed it. -/
def receiveMore : (pieces missing : Nat) → (read : List Bytes) → LinkM ω ρ Bytes
  | _, 0, read => return read.reverse.flatten
  | 0, _ + 1, _ => throw .stalled
  | pieces + 1, missing + 1, read => do
    let bytes ← nextPiece
    if bytes.isEmpty then fail .earlyEnd
    else if bytes.length ≤ missing then
      receiveMore pieces (missing + 1 - bytes.length) (bytes :: read)
    else
      -- the rest of the last piece is for whoever reads next
      modifyThe (Link ρ) fun l => { l with unread := bytes.drop (missing + 1) }
      return (bytes.take (missing + 1) :: read).reverse.flatten

/-- Reads exactly `n` bytes. If fewer come, they are read and lost. -/
def receive (n : Nat) : LinkM ω ρ Bytes := do
  let unread := (← getThe (Link ρ)).unread
  modifyThe (Link ρ) fun l => { l with unread := unread.drop n }
  receiveMore (n - unread.length) (n - unread.length) [unread.take n]

/-- Writes some bytes after each other; each write takes at least one byte, so
`writes` need not exceed their number. -/
def writeWithin : (writes : Nat) → Bytes → LinkM ω ρ Unit
  | _, [] => return
  | 0, _ :: _ => throw .stalled
  | writes + 1, bytes => do
    let l ← getThe (Link ρ)
    let (taken, remote, world) := Remote.write bytes l.remote (← getThe ω)
    set world
    set { l with remote }
    match taken with
    | .error e => throw (.failed e)
    | .ok 0 => fail (.bare .writeZero)
    | .ok n => writeWithin writes (bytes.drop n)

/-- Writes all bytes. -/
def writeAll (bytes : Bytes) : LinkM ω ρ Unit := writeWithin bytes.length bytes

/-- Gives up a link. -/
def close (l : Link ρ) : StateM ω Unit := modify (Remote.close l.remote)

end Link

end FleetEstimate
