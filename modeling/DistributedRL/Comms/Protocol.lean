import Mathlib.Algebra.Group.Nat.Defs
import Mathlib.Data.List.Basic
import Mathlib.Data.List.Infix

/-!
# The wire protocol

Every message on the wire is a 4-byte big-endian length followed by the pickled payload
(`comms/protocol.py`). `pickle` is a parameter: a pair of functions on byte strings.

A socket is the bytes still to arrive before the end of the stream, together with the sizes at
which `recv` will cut them; quantifying over the sizes quantifies over every fragmentation.
-/

namespace DistributedRL

/-- The exceptions of the modelled code. -/
inductive PyError
  | connectionClosed | osError | structError | unpicklingError
  | keyError | typeError | attributeError | valueError | indexError
  deriving DecidableEq, Repr

/-- The two functions of the `pickle` module that are used. -/
structure Pickle (β : Type*) where
  dumps : β → List UInt8
  loads : List UInt8 → Option β

/-- `pickle.loads` undoes `pickle.dumps`. -/
def Pickle.Lawful {β : Type*} (p : Pickle β) : Prop := ∀ x, p.loads (p.dumps x) = some x

/-! ### The header -/

/-- `_HEADER.size` -/
def headerSize : ℕ := 4

/-- `_HEADER.pack(n)` -/
def packLength (n : ℕ) : Except PyError (List UInt8) :=
  if n < 2 ^ 32 then
    .ok [UInt8.ofNat (n / 2 ^ 24), UInt8.ofNat (n / 2 ^ 16), UInt8.ofNat (n / 2 ^ 8), UInt8.ofNat n]
  else .error .structError

/-- `_HEADER.unpack(bs)`: the bytes read as one big-endian number. -/
def unpackLength (bs : List UInt8) : ℕ := bs.foldl (fun n b => n * 256 + b.toNat) 0

lemma unpackLength_packLength {n : ℕ} {bs : List UInt8} (h : packLength n = .ok bs) :
    unpackLength bs = n ∧ bs.length = headerSize := by
  simp only [packLength] at h
  split_ifs at h with hn
  cases h
  refine ⟨?_, rfl⟩
  simp only [unpackLength, List.foldl_cons, List.foldl_nil, UInt8.toNat_ofNat']
  omega

/-! ### Sending -/

variable {β : Type*}

/-- The bytes `send_message` hands to `sendall`. -/
def frame (p : Pickle β) (payload : β) : Except PyError (List UInt8) :=
  match packLength (p.dumps payload).length with
  | .ok header => .ok (header ++ p.dumps payload)
  | .error e => .error e

/-- `send_message`, acting on the bytes written so far. -/
def sendMessage (p : Pickle β) (payload : β) (out : List UInt8) :
    Except PyError Unit × List UInt8 :=
  match frame p payload with
  | .ok bytes => (.ok (), out ++ bytes)
  | .error e => (.error e, out)

/-- `send_message` for each payload of a list, up to the first exception. -/
def sendAll (p : Pickle β) : List β → List UInt8 → Except PyError Unit × List UInt8
  | [], out => (.ok (), out)
  | m :: ms, out =>
    match sendMessage p m out with
    | (.ok _, out') => sendAll p ms out'
    | (.error e, out') => (.error e, out')

/-! ### Receiving -/

/-- The receiving end of a connection. -/
structure Sock where
  pending : List UInt8
  cuts : ℕ → ℕ
  calls : ℕ

/-- `sock.recv(k)`: between 1 and `k` bytes, and none only at the end of the stream. -/
def Sock.recv (s : Sock) (k : ℕ) : List UInt8 × Sock :=
  let n := max 1 (min k (s.cuts s.calls))
  (s.pending.take n, { s with pending := s.pending.drop n, calls := s.calls + 1 })

/-- The loop of `_recv_exactly`, with the bytes accumulated so far. -/
def recvLoop (n : ℕ) (data : List UInt8) (s : Sock) : Except PyError (List UInt8) × Sock :=
  if data.length < n then
    match s.recv (n - data.length) with
    | ([], s') => (.error .connectionClosed, s')
    | (b :: bs, s') => recvLoop n (data ++ b :: bs) s'
  else (.ok data, s)
termination_by n - data.length
decreasing_by simp only [List.length_append, List.length_cons]; omega

/-- `_recv_exactly` -/
def recvExactly (s : Sock) (n : ℕ) : Except PyError (List UInt8) × Sock := recvLoop n [] s

/-- `recv_message` -/
def recvMessage (p : Pickle β) (s : Sock) : Except PyError β × Sock :=
  match recvExactly s headerSize with
  | (.error e, s') => (.error e, s')
  | (.ok header, s') =>
    match recvExactly s' (unpackLength header) with
    | (.error e, s'') => (.error e, s'')
    | (.ok payload, s'') =>
      match p.loads payload with
      | some m => (.ok m, s'')
      | none => (.error .unpicklingError, s'')

/-- At most `n` calls of `recv_message`, up to the first exception. -/
def recvMany (p : Pickle β) : ℕ → Sock → List β × Except PyError Unit × Sock
  | 0, s => ([], .ok (), s)
  | n + 1, s =>
    match recvMessage p s with
    | (.error e, s') => ([], .error e, s')
    | (.ok m, s') =>
      let r := recvMany p n s'
      (m :: r.1, r.2)

end DistributedRL
