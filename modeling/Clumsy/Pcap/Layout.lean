/-
# Pcap.Layout -- the two headers of a capture file

`pcapexport.cpp` writes them and `pcapreplay.cpp` reads them, each from a packed struct
of its own; both are words with the low byte first.
-/
import Clumsy.Packet.Node
import Clumsy.Theory.Words

namespace Clumsy.Pcap

open Clumsy.Theory
open Clumsy.Packet

set_option autoImplicit false

def PCAP_MAGIC : UInt32 := 0xa1b2c3d4
def PCAP_MAGIC_SWAPPED : UInt32 := 0xd4c3b2a1
/-- Nanosecond-resolution variants written by newer tcpdump. -/
def PCAP_MAGIC_NS : UInt32 := 0xa1b23c4d
def PCAP_MAGIC_NS_SWAP : UInt32 := 0x4d3cb2a1

def LINKTYPE_ETHERNET : UInt32 := 1
def LINKTYPE_RAW : UInt32 := 101
def LINKTYPE_IPV4 : UInt32 := 228
def LINKTYPE_IPV6 : UInt32 := 229

/-- `PcapGlobalHeader` and `ReplayGlobalHeader`. -/
structure GlobalHeader where
  magic        : UInt32
  versionMajor : UInt16
  versionMinor : UInt16
  thisZone     : UInt32
  sigFigs      : UInt32
  snapLen      : UInt32
  network      : UInt32
  deriving DecidableEq, Repr

/-- `PcapRecordHeader` and `ReplayRecordHeader`. -/
structure RecordHeader where
  tsSec   : UInt32
  tsUsec  : UInt32
  inclLen : UInt32
  origLen : UInt32
  deriving DecidableEq, Repr

namespace GlobalHeader

/-- `sizeof`. -/
def size : Nat := 24

def fields (gh : GlobalHeader) : List (Nat × Nat) :=
  [(4, gh.magic.toNat), (2, gh.versionMajor.toNat), (2, gh.versionMinor.toNat),
    (4, gh.thisZone.toNat), (4, gh.sigFigs.toNat), (4, gh.snapLen.toNat), (4, gh.network.toNat)]

def encode (gh : GlobalHeader) : Bytes := writeWords gh.fields

def decode (block : Bytes) : GlobalHeader :=
  let word i := (readWords [4, 2, 2, 4, 4, 4, 4] block).getD i 0
  { magic := .ofNat (word 0), versionMajor := .ofNat (word 1), versionMinor := .ofNat (word 2)
    thisZone := .ofNat (word 3), sigFigs := .ofNat (word 4), snapLen := .ofNat (word 5)
    network := .ofNat (word 6) }

@[simp] theorem encode_length (gh : GlobalHeader) : gh.encode.length = size :=
  writeWords_length gh.fields

theorem decode_encode (gh : GlobalHeader) : decode gh.encode = gh := by
  have small : ∀ field ∈ gh.fields, field.2 < 256 ^ field.1 := by
    have word (v : UInt32) : v.toNat < 256 ^ 4 := v.toNat_lt
    have half (v : UInt16) : v.toNat < 256 ^ 2 := v.toNat_lt
    simp only [fields, List.forall_mem_cons]
    exact ⟨word _, half _, half _, word _, word _, word _, word _, by simp⟩
  have words : readWords [4, 2, 2, 4, 4, 4, 4] gh.encode = gh.fields.map Prod.snd :=
    readWords_writeWords small
  rw [decode, words]
  simp [fields]

end GlobalHeader

namespace RecordHeader

/-- `sizeof`. -/
def size : Nat := 16

def fields (rh : RecordHeader) : List (Nat × Nat) :=
  [(4, rh.tsSec.toNat), (4, rh.tsUsec.toNat), (4, rh.inclLen.toNat), (4, rh.origLen.toNat)]

def encode (rh : RecordHeader) : Bytes := writeWords rh.fields

def decode (block : Bytes) : RecordHeader :=
  let word i := UInt32.ofNat ((readWords [4, 4, 4, 4] block).getD i 0)
  { tsSec := word 0, tsUsec := word 1, inclLen := word 2, origLen := word 3 }

@[simp] theorem encode_length (rh : RecordHeader) : rh.encode.length = size :=
  writeWords_length rh.fields

theorem decode_encode (rh : RecordHeader) : decode rh.encode = rh := by
  have small : ∀ field ∈ rh.fields, field.2 < 256 ^ field.1 := by
    have word (v : UInt32) : v.toNat < 256 ^ 4 := v.toNat_lt
    simp only [fields, List.forall_mem_cons]
    exact ⟨word _, word _, word _, word _, by simp⟩
  have words : readWords [4, 4, 4, 4] rh.encode = rh.fields.map Prod.snd :=
    readWords_writeWords small
  rw [decode, words]
  simp [fields]

end RecordHeader

/-- A record of the file. -/
def recordBytes (record : RecordHeader × Bytes) : Bytes := record.1.encode ++ record.2

/-- A file: the global header and the records. -/
def fileBytes (gh : GlobalHeader) (records : List (RecordHeader × Bytes)) : Bytes :=
  gh.encode ++ records.flatMap recordBytes

end Clumsy.Pcap
