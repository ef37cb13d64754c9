import Ulpf.Lib.Bytes
import Ulpf.Lib.Sha256

namespace ulpf_integrity.merkle

/-- A digest type with the hash function that fills it. The source uses the
    `[u8; 32]` behind its `Hash` and the `sha2` crate; the tree logic relies on
    nothing but equality of digests and their byte form. `of_bytes` is the array
    conversion: it succeeds exactly on the bytes of some digest, which for
    `[u8; 32]` means on 32 bytes. -/
class Digest (H : Type) where
  sha256 : List UInt8 → H
  to_bytes : H → List UInt8
  of_bytes : List UInt8 → Option H
  of_bytes_eq_some_iff : ∀ {bytes : List UInt8} {h : H}, of_bytes bytes = some h ↔ to_bytes h = bytes

/-- Domain separation prefixes as mandated by RFC 6962 Section 2.1. -/
def LEAF_PREFIX : UInt8 := 0x00
def NODE_PREFIX : UInt8 := 0x01

section

variable {H : Type} [Digest H]

theorem Digest.to_bytes_injective : Function.Injective (Digest.to_bytes (H := H)) := by
  intro a b h
  have ha := (Digest.of_bytes_eq_some_iff (h := a)).mpr rfl
  rw [h, Digest.of_bytes_eq_some_iff.mpr rfl] at ha
  exact (Option.some_injective _ ha).symm

@[simp] theorem Digest.of_bytes_to_bytes (h : H) : Digest.of_bytes (Digest.to_bytes h) = some h :=
  Digest.of_bytes_eq_some_iff.mpr rfl

def Hash.to_hex (h : H) : String := hex.encode (Digest.to_bytes h)

@[simp] theorem Hash.to_hex_inj {a b : H} : Hash.to_hex a = Hash.to_hex b ↔ a = b := by
  unfold Hash.to_hex
  rw [hex.encode_inj, Digest.to_bytes_injective.eq_iff]

/-- Leaf hash as per RFC 6962: `SHA256(0x00 || raw_data)`. -/
def hash_leaf (data : List UInt8) : H := Digest.sha256 (LEAF_PREFIX :: data)

/-- Internal node hash as per RFC 6962: `SHA256(0x01 || left || right)`. -/
def hash_children (left right : H) : H :=
  Digest.sha256 (NODE_PREFIX :: (Digest.to_bytes left ++ Digest.to_bytes right))

/-- Empty tree hash as per RFC 6962: `SHA256("")`. -/
def empty_tree_hash : H := Digest.sha256 []

/-- `hex::encode(Sha256::digest(bytes))`, the per-row digest column. -/
def digest_hex (H : Type) [Digest H] (bytes : List UInt8) : String :=
  Hash.to_hex (Digest.sha256 bytes : H)

end

/-- The idealised hash of the security statements: leaf and node hashes are
    injective and no digest is both a leaf's and a node's. -/
class DomainSeparated (H : Type) [Digest H] : Prop where
  hash_leaf_injective : Function.Injective (hash_leaf (H := H))
  hash_children_injective : ∀ a b c d : H, hash_children a b = hash_children c d → a = c ∧ b = d
  hash_leaf_ne_hash_children : ∀ (data : List UInt8) (a b : H), hash_leaf data ≠ hash_children a b

/-- The source's `Hash`: 32 bytes. -/
structure Hash where
  bytes : List UInt8
  length_eq : bytes.length = 32
  deriving DecidableEq

instance : Digest Hash where
  sha256 message := ⟨sha256.digest message, sha256.length_digest message⟩
  to_bytes := Hash.bytes
  of_bytes bytes := if h : bytes.length = 32 then some ⟨bytes, h⟩ else none
  of_bytes_eq_some_iff := by
    rintro bytes ⟨value, hlength⟩
    constructor
    · intro h
      split at h
      · exact (congrArg Hash.bytes (Option.some_injective _ h)).symm
      · cases h
    · rintro rfl
      simp [hlength]

example : Hash.to_hex (empty_tree_hash : Hash) =
    "e3b0c44298fc1c149afbf4c8996fb92427ae41e4649b934ca495991b7852b855" := by decide +kernel

/-- A digest that remembers what was hashed. Its bytes are self-delimiting, so
    that the two children of a node can be told apart in the node's preimage. -/
structure Preimage where
  input : List UInt8
  deriving DecidableEq, Repr

namespace Preimage

def encode : List UInt8 → List UInt8
  | [] => [0]
  | b :: rest => 1 :: b :: encode rest

def decode : List UInt8 → Option (List UInt8)
  | [0] => some []
  | 1 :: b :: rest => (decode rest).map (b :: ·)
  | _ => none

theorem decode_encode (input : List UInt8) : decode (encode input) = some input := by
  induction input with
  | nil => rfl
  | cons b input ih => simp [encode, decode, ih]

theorem encode_of_decode {bytes input : List UInt8} (h : decode bytes = some input) :
    encode input = bytes := by
  induction bytes using decode.induct generalizing input with
  | case1 => simp_all [decode, encode]
  | case2 b rest ih =>
    simp only [decode, Option.map_eq_some_iff] at h
    obtain ⟨tail, htail, rfl⟩ := h
    rw [encode, ih htail]
  | case3 bytes hzero hone =>
    rw [decode] at h
    · cases h
    · exact hzero
    · exact hone

instance : Digest Preimage where
  sha256 message := ⟨message⟩
  to_bytes h := encode h.input
  of_bytes bytes := (decode bytes).map Preimage.mk
  of_bytes_eq_some_iff := by
    rintro bytes ⟨input⟩
    constructor
    · intro h
      obtain ⟨value, hvalue, hinput⟩ := Option.map_eq_some_iff.mp h
      cases hinput
      exact encode_of_decode hvalue
    · rintro rfl
      simp [decode_encode]

/-- The byte form of a digest can be split off any text that starts with it. -/
theorem encode_append_inj {a b x y : List UInt8} (h : encode a ++ x = encode b ++ y) :
    a = b ∧ x = y := by
  induction a generalizing b with
  | nil => cases b <;> simp_all [encode]
  | cons c a ih =>
    cases b with
    | nil => simp [encode] at h
    | cons d b =>
      simp only [encode, List.cons_append, List.cons.injEq, true_and] at h
      obtain ⟨rfl, htail⟩ := h
      obtain ⟨rfl, rfl⟩ := ih htail
      exact ⟨rfl, rfl⟩

instance : DomainSeparated Preimage where
  hash_leaf_injective := by
    intro a b h
    simpa [hash_leaf, Digest.sha256] using h
  hash_children_injective := by
    rintro ⟨a⟩ ⟨b⟩ ⟨c⟩ ⟨d⟩ h
    simp only [hash_children, Digest.sha256, Digest.to_bytes, Preimage.mk.injEq, List.cons.injEq,
      true_and] at h
    obtain ⟨rfl, htail⟩ := encode_append_inj h
    have hbd := encode_append_inj (x := []) (y := []) (by simpa using htail)
    exact ⟨rfl, congrArg Preimage.mk hbd.1⟩
  hash_leaf_ne_hash_children := by
    intro data a b h
    simp [hash_leaf, hash_children, Digest.sha256, LEAF_PREFIX, NODE_PREFIX] at h

end Preimage

end ulpf_integrity.merkle
