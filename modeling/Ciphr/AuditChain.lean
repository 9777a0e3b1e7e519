import Ciphr.LibFold
import Ciphr.CoreHex
import Ciphr.AuditTime
import Ciphr.AuditEntry

/-!
`ciphr-audit/src/chain.rs`: the hash chain. SHA-256 and the JSON encoding are parameters. Sequence
numbers are natural numbers; where a computation on them could leave 64 bits it says so.
-/

namespace Ciphr

/-- `[u8; HASH_LEN]`. -/
abbrev Hash : Type := Vector UInt8 32

def genesis : Hash := Vector.replicate 32 0

/-- A record, as it is serialized and hashed. -/
structure Record where
  seq : Nat
  ts : String
  prevHash : String
  entry : Entry
  deriving DecidableEq, Repr

/-- The fields of a stored record that verification reads. -/
structure Header where
  seq : Nat
  prevHash : String
  deriving DecidableEq, Repr

/-- SHA-256, and `serde_json` on the types of the audit crate: `to_string` on a record, `from_str`
into a header, and `from_str` into a value of which the unsigned number under `seq` is asked for.
The errors are their texts. -/
structure Codec where
  sha256 : List UInt8 → Hash
  recordToString : Record → Except String String
  headerFromStr : String → Except String Header
  valueSeq : String → Except String (Option Nat)

structure EncodedRecord where
  seq : Nat
  tsMillis : Int
  prevHash : Hash
  hash : Hash
  payload : String
  deriving DecidableEq

def Codec.hashPayload (codec : Codec) (payload : String) : Hash :=
  codec.sha256 payload.toUTF8.data.toList

structure DeviceFailure where
  device : String
  reason : String
  deriving DecidableEq, Repr

inductive AuditError where
  | noDevices
  | allDevicesFailed (failures : List DeviceFailure)
  | encode (error : String)
  deriving DecidableEq, Repr

/-- What the next record's sequence number and `prev_hash` are. -/
structure Chain where
  nextSeq : Nat
  prevHash : Hash
  deriving DecidableEq

namespace Chain

def new : Chain := ⟨1, genesis⟩

def resume (lastSeq : Nat) (lastHash : Hash) : Chain := ⟨lastSeq + 1, lastHash⟩

/-- The next record, without advancing the chain. -/
def encode (codec : Codec) (chain : Chain) (entry : Entry) (nowMillis : Int) :
    Except AuditError EncodedRecord := do
  let record : Record :=
    ⟨chain.nextSeq, rfc3339Millis nowMillis, Hex.encode chain.prevHash.toList, entry⟩
  let payload ← (codec.recordToString record).mapError .encode
  .ok ⟨chain.nextSeq, nowMillis, chain.prevHash, codec.hashPayload payload, payload⟩

theorem encode_eq_ok {codec : Codec} {chain : Chain} {entry : Entry} {nowMillis : Int}
    {record : EncodedRecord} (h : chain.encode codec entry nowMillis = .ok record) :
    record.seq = chain.nextSeq ∧ record.prevHash = chain.prevHash ∧
      record.hash = codec.hashPayload record.payload ∧ record.tsMillis = nowMillis ∧
      codec.recordToString ⟨chain.nextSeq, rfc3339Millis nowMillis,
        Hex.encode chain.prevHash.toList, entry⟩ = .ok record.payload := by
  obtain ⟨payload, hpayload, h⟩ := Loop.bind_eq_ok h
  cases h
  exact ⟨rfl, rfl, rfl, rfl, Loop.mapError_eq_ok hpayload⟩

theorem seq_of_encode {codec : Codec} {chain : Chain} {entry : Entry} {nowMillis : Int}
    {record : EncodedRecord} (h : chain.encode codec entry nowMillis = .ok record) :
    record.seq = chain.nextSeq :=
  (encode_eq_ok h).1

/-- Advance past a record that was stored. The record of another sequence number, on which the
source panics, cannot be given. -/
def commit (chain : Chain) (record : EncodedRecord) (_ : record.seq = chain.nextSeq) : Chain :=
  ⟨chain.nextSeq + 1, record.hash⟩

end Chain

end Ciphr
